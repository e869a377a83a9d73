import FormatCompiler.Proofs.CodeLevels
import FormatCompiler.Proofs.ScopeEmission

/-!
Classes inside classes. The class of a scope has a place for the classes of the scopes inside it,
one block further in, so how many blocks are open at a time depends on how deep scopes are nested.
-/

namespace FormatCompiler

set_option autoImplicit false

namespace Code

theorem add_max_le {opened bound one other : Nat} :
    opened + max one other ≤ bound ↔ opened + one ≤ bound ∧ opened + other ≤ bound := by
  omega

/-- Code with a place for other code, with some blocks around that place. Without other code it is
plain; with it, a step in too many still shows. -/
structure Hosts (around bound : Nat) (make : List Code → Code) : Prop where
  own : Plain bound (make [])
  reveals : ∀ nested, (∀ code ∈ nested, Reveals code) → Reveals (make nested)
  balanced : ∀ nested, (∀ code ∈ nested, Balanced code) → Balanced (make nested)
  depth_le : ∀ nested, (∀ code ∈ nested, Balanced code) → ∀ opened room,
    (opened + depth (make nested) ≤ room ↔
      opened + depth (make []) ≤ room ∧ ∀ code ∈ nested, opened + around + depth code ≤ room)

namespace Hosts

variable {around bound : Nat} {make : List Code → Code} {first second : Code}

/-- The place itself: each part counts its levels by itself, behind an empty line. -/
theorem place : Hosts 0 bound fun nested => nested.flatMap (Step.blank :: apart ·) where
  own := .nil
  reveals nested inside := .flatMap fun code met => .blank (inside code met).apart
  balanced nested inside := .flatMap fun code met => .blank (inside code met).apart
  depth_le nested inside opened room := by
    have each : ∀ code ∈ nested, Balanced (Step.blank :: apart code) :=
      fun code met => .blank (inside code met).apart
    have alone : ∀ code ∈ nested, depth (Step.blank :: apart code) = depth code := by
      intro code met
      rw [depth, deepest_blank]
      exact (inside code met).depth_apart
    rw [Balanced.depth_flatMap_le each]
    exact and_congr_right fun _ => forall₂_congr fun code met => by rw [alone code met]; rfl

theorem block (hosts : Hosts around bound make) (line : ∀ nested, HasLine (make nested)) :
    Hosts (around + 1) (bound + 1) fun nested => Code.block (make nested) where
  own := hosts.own.block
  reveals nested inside := (hosts.reveals nested inside).block (line nested)
  balanced nested inside := (hosts.balanced nested inside).block
  depth_le nested inside opened room := by
    have deeper := hosts.depth_le nested inside (opened + 1) room
    rw [(hosts.balanced nested inside).depth_block, hosts.own.balanced.depth_block]
    simpa only [Nat.add_assoc, Nat.add_comm 1, Nat.add_left_comm 1] using deeper

theorem depth_append_le (balanced : Balanced first) (hosts : Hosts around bound make)
    (nested : List Code) (inside : ∀ code ∈ nested, Balanced code) (opened room : Nat) :
    opened + depth (first ++ make nested) ≤ room ↔ opened + depth (first ++ make []) ≤ room ∧
      ∀ code ∈ nested, opened + around + depth code ≤ room := by
  rw [balanced.depth_append, balanced.depth_append, add_max_le, add_max_le,
    hosts.depth_le nested inside, and_assoc]

theorem append_left (shown : Shown bound first) (hosts : Hosts around bound make) :
    Hosts around bound fun nested => first ++ make nested where
  own := shown.plain.append hosts.own
  reveals nested inside := shown.reveals.append (hosts.reveals nested inside)
  balanced nested inside := shown.plain.balanced.append (hosts.balanced nested inside)
  depth_le := depth_append_le shown.plain.balanced hosts

/-- What is left behind before the place shows at the place, if there is a line. -/
theorem append_plain (plain : Plain bound first) (small : bound ≤ 255)
    (hosts : Hosts around bound make) (line : ∀ nested, HasLine (make nested)) :
    Hosts around bound fun nested => first ++ make nested where
  own := plain.append hosts.own
  reveals nested inside := plain.reveals small (hosts.reveals nested inside) (line nested)
  balanced nested inside := plain.balanced.append (hosts.balanced nested inside)
  depth_le := depth_append_le plain.balanced hosts

theorem append_right (hosts : Hosts around bound make) (shown : Shown bound second) :
    Hosts around bound fun nested => make nested ++ second where
  own := hosts.own.append shown.plain
  reveals nested inside := (hosts.reveals nested inside).append shown.reveals
  balanced nested inside := (hosts.balanced nested inside).append shown.plain.balanced
  depth_le nested inside opened room := by
    rw [(hosts.balanced nested inside).depth_append, hosts.own.balanced.depth_append, add_max_le,
      add_max_le, hosts.depth_le nested inside, and_right_comm]

/-- Code without blocks may depend on what is at the place. -/
theorem append_flat (hosts : Hosts around bound make) {behind : List Code → Code}
    (flat : ∀ nested, Plain 0 (behind nested)) :
    Hosts around bound fun nested => make nested ++ behind nested where
  own := hosts.own.append ((flat []).mono (Nat.zero_le bound))
  reveals nested inside := (hosts.reveals nested inside).append (.flat (flat nested))
  balanced nested inside := (hosts.balanced nested inside).append (flat nested).balanced
  depth_le nested inside opened room := by
    rw [(hosts.balanced nested inside).depth_append, hosts.own.balanced.depth_append,
      Nat.le_zero.mp (flat nested).depth_le, Nat.le_zero.mp (flat []).depth_le, Nat.max_zero,
      Nat.max_zero]
    exact hosts.depth_le nested inside opened room

end Hosts

end Code

namespace Module

variable {module : Module} {combine : Scope → List Code → Code}

/-- No scope is met so deep that more than 255 blocks would be open in its class. -/
def HasRoom (module : Module) (combine : Scope → List Code → Code) : Prop :=
  ∀ visited ∈ module.visits, ∀ scope, module.scope? visited.1 = some scope →
    visited.2.length + (combine scope []).depth ≤ 256

/-- What one step of the fold keeps, the fold has. -/
theorem foldFrom_induction {α : Type} {combine : Scope → List α → α} {motive : α → Prop}
    (step : ∀ scope nested, (∀ inside ∈ nested, motive inside) → motive (combine scope nested))
    (module : Module) (depth : Nat) (scope : Scope) :
    motive (foldFrom combine module depth scope) := by
  induction depth generalizing scope with
  | zero => exact step scope [] (List.forall_mem_nil _)
  | succ depth ih =>
    rw [foldFrom_succ]
    refine step scope _ fun inside made => ?_
    obtain ⟨child, -, rfl⟩ := List.mem_map.mp made
    exact ih child

theorem scope_of_mem_inner {scope child : Scope} (member : child ∈ module.inner scope) :
    module.scope? child.path = some child := by
  obtain ⟨path, -, found⟩ := List.mem_filterMap.mp member
  rwa [(scope_path found).1]

/-- What each scope asks for is asked of the fold, with a block more for each name. -/
theorem depth_foldFrom_le (hosts : ∀ scope, Code.Hosts 1 5 (combine scope)) (depth : Nat)
    {scope : Scope} (found : module.scope? scope.path = some scope) (opened bound : Nat) :
    opened + (foldFrom combine module depth scope).depth ≤ bound ↔
      ∀ visited ∈ foldFrom visit module depth scope, ∀ met, module.scope? visited.1 = some met →
        opened + visited.2.length + (combine met []).depth ≤ bound + 1 := by
  have own {start : Scope} (there : module.scope? start.path = some start) (opened : Nat) :
      opened + (combine start []).depth ≤ bound ↔ ∀ met, module.scope? start.path = some met →
        opened + 1 + (combine met []).depth ≤ bound + 1 := by
    rw [there]
    constructor
    · rintro room met ⟨⟩
      omega
    · intro room
      have here := room start rfl
      omega
  induction depth generalizing scope opened with
  | zero =>
    rw [foldFrom, foldFrom, visit, List.flatten_nil, List.map_nil, List.forall_mem_singleton]
    exact own found opened
  | succ depth ih =>
    have balanced : ∀ code ∈ (module.inner scope).map (foldFrom combine module depth),
        Code.Balanced code := by
      intro code made
      obtain ⟨child, -, rfl⟩ := List.mem_map.mp made
      exact foldFrom_induction (fun scope => (hosts scope).balanced) module depth child
    rw [foldFrom_succ, foldFrom_succ, (hosts scope).depth_le _ balanced, visit,
      List.forall_mem_cons]
    refine and_congr (own found opened) ?_
    simp only [List.forall_mem_map, List.forall_mem_flatten, Prod.forall, List.length_cons]
    refine forall₂_congr fun child member => ?_
    -- a class inside is one block further in, and the scopes below it are met under one name more
    have deeper := ih (scope_of_mem_inner member) (opened + 1)
    simpa only [Prod.forall, Nat.add_assoc, Nat.add_comm 1] using deeper

theorem depth_foldScopes_le (hosts : ∀ scope, Code.Hosts 1 5 (combine scope)) (module : Module) :
    (module.foldScopes combine).depth ≤ 255 ↔ module.HasRoom combine := by
  have root : module.scope? module.rootScope.path = some module.rootScope := scope_root
  have all := depth_foldFrom_le hosts module.nested.length root 0 255
  simp only [Nat.zero_add] at all
  exact all

/-- In a module without end every level that is gone down is a block more. -/
theorem le_depth_foldFrom (hosts : ∀ scope, Code.Hosts 1 5 (combine scope))
    (improper : "" ∈ module.paths) (depth : Nat) :
    depth ≤ (foldFrom combine module depth module.rootScope).depth := by
  induction depth with
  | zero => exact Nat.zero_le _
  | succ depth ih =>
    have balanced : ∀ code ∈ (module.inner module.rootScope).map (foldFrom combine module depth),
        Code.Balanced code := by
      intro code made
      obtain ⟨child, -, rfl⟩ := List.mem_map.mp made
      exact foldFrom_induction (fun scope => (hosts scope).balanced) module depth child
    have inside := (((hosts module.rootScope).depth_le _ balanced 0 _).mp
      (Nat.le_of_eq (Nat.zero_add _))).2 _ (List.mem_map_of_mem (rootScope_mem_inner improper))
    rw [foldFrom_succ]
    omega

/-- There is room for scopes that are no more than 251 names deep. -/
theorem hasRoom_of_shallow (hosts : ∀ scope, Code.Hosts 1 5 (combine scope))
    (shallow : ∀ visited ∈ module.visits, visited.2.length ≤ 251) : module.HasRoom combine := by
  intro visited met scope _
  have names := shallow visited met
  have own := (hosts scope).own.depth_le
  omega

end Module

end FormatCompiler
