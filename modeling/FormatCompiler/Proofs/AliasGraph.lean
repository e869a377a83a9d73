import Mathlib.Data.List.Nodup
import Mathlib.Logic.Relation
import FormatCompiler.Format.Rules
import FormatCompiler.Proofs.Outcome

/-!
The graph of aliases. An alias leads to one further name, so from each name there is one chain. The
walk over the graph accepts it exactly when every chain comes to an end through known names; what it
reports otherwise is there: a name that leads back to itself, or an alias of an unknown name.
-/

namespace FormatCompiler.Rules

set_option autoImplicit false

/-- A name is an alias of another one. -/
def AliasOf (edges : List (String × String)) (name target : String) : Prop :=
  (name, target) ∈ edges

/-- The chain from a name comes to an end, and every alias on it stands for a known name. -/
inductive ChainEnds (knows : String → Bool) (edges : List (String × String)) : String → Prop
  | last (name : String) (free : ∀ target, ¬ AliasOf edges name target) : ChainEnds knows edges name
  | link {name target : String} (edge : AliasOf edges name target) (known : knows target = true)
      (rest : ChainEnds knows edges target) : ChainEnds knows edges name

/-- A violation that the graph really has. -/
def IsAliasFault (knows : String → Bool) (edges : List (String × String)) : Violation → Prop
  | .aliasCycle name => Relation.TransGen (AliasOf edges) name name
  | .unknownAliasTarget name target => AliasOf edges name target ∧ knows target = false
  | _ => False

/-- Every edge is still to be used, is on the chain of the present walk or was found to be sound. -/
structure Covers (knows : String → Bool) (edges unused : List (String × String))
    (chain : List String) : Prop where
  unused_subset : unused ⊆ edges
  used : ∀ edge ∈ edges, edge ∈ unused ∨ edge.1 ∈ chain ∨ ChainEnds knows edges edge.1

variable {knows : String → Bool} {edges unused : List (String × String)} {chain : List String}
  {current target : String}

theorem Covers.start : Covers knows edges edges [] :=
  ⟨List.Subset.refl edges, fun _ member => .inl member⟩

/-- One step of a walk: the edges of the present name move from the unused ones to the chain. -/
theorem Covers.step (covers : Covers knows edges unused chain) (current : String) :
    Covers knows edges (edgesNotFrom current unused) (current :: chain) := by
  constructor
  · exact List.Subset.trans List.filter_sublist.subset covers.unused_subset
  · intro edge member
    by_cases here : edge.1 = current
    · exact .inr (.inl (by simp [here]))
    · rcases covers.used edge member with unused | passed | sound
      · exact .inl (List.mem_filter.mpr ⟨unused, by simpa using here⟩)
      · exact .inr (.inl (List.mem_cons_of_mem current passed))
      · exact .inr (.inr sound)

/-- A name whose chain is known to end can leave the chain of the walk. -/
theorem Covers.leave (covers : Covers knows edges unused (current :: chain))
    (sound : ChainEnds knows edges current) : Covers knows edges unused chain := by
  refine ⟨covers.unused_subset, fun edge member => ?_⟩
  rcases covers.used edge member with left | passed | ended
  · exact .inl left
  · rcases List.mem_cons.mp passed with here | before
    · exact .inr (.inr (here ▸ sound))
    · exact .inr (.inl before)
  · exact .inr (.inr ended)

/-- Where no edge is left to use, an earlier walk has been, or there never was one. -/
theorem Covers.chainEnds (covers : Covers knows edges unused chain) (fresh : current ∉ chain)
    (none : unused.find? (fun edge => edge.1 == current) = none) :
    ChainEnds knows edges current := by
  by_cases leads : ∃ target, AliasOf edges current target
  · obtain ⟨target, edge⟩ := leads
    rcases covers.used (current, target) edge with unused | passed | sound
    · exact absurd (beq_self_eq_true current) (List.find?_eq_none.mp none _ unused)
    · exact absurd passed fresh
    · exact sound
  · exact .last current (not_exists.mp leads)

theorem Covers.aliasOf_of_find (covers : Covers knows edges unused chain) {name : String}
    (found : unused.find? (fun edge => edge.1 == current) = some (name, target)) :
    AliasOf edges current target := by
  have same : name = current := by simpa using List.find?_some found
  rw [← same]
  exact covers.unused_subset (List.mem_of_find?_eq_some found)

theorem walkAliases_ok {left : List (String × String)} (covers : Covers knows edges unused chain)
    (finished : walkAliases knows unused chain current = .ok left) :
    ChainEnds knows edges current ∧ Covers knows edges left chain := by
  fun_induction walkAliases knows unused chain current with
  | case1 => cases finished
  | case2 unused chain current fresh none =>
    cases finished
    have fresh : current ∉ chain := by simpa using fresh
    exact ⟨covers.chainEnds fresh none, covers⟩
  | case3 => cases finished
  | case4 unused chain current fresh name target found known ih =>
    obtain ⟨ended, after⟩ := ih (covers.step current) finished
    have known : knows target = true := by simpa using known
    have sound : ChainEnds knows edges current :=
      .link (covers.aliasOf_of_find found) known ended
    exact ⟨sound, after.leave sound⟩

/-- The names of the chain lead to the present one, so meeting one of them again closes a cycle. -/
theorem walkAliases_error {violation : Violation} (covers : Covers knows edges unused chain)
    (path : ∀ name ∈ chain, Relation.TransGen (AliasOf edges) name current)
    (failed : walkAliases knows unused chain current = .error violation) :
    IsAliasFault knows edges violation := by
  fun_induction walkAliases knows unused chain current with
  | case1 unused chain current again =>
    cases failed
    exact path current (by simpa using again)
  | case2 => cases failed
  | case3 unused chain current fresh name target found unknown =>
    cases failed
    exact ⟨covers.aliasOf_of_find found, by simpa using unknown⟩
  | case4 unused chain current fresh name target found known ih =>
    have edge := covers.aliasOf_of_find found
    refine ih (covers.step current) ?_ failed
    intro other member
    rcases List.mem_cons.mp member with rfl | before
    · exact .single edge
    · exact (path other before).tail edge

theorem walkAll_ok {starts : List (String × String)} (covers : Covers knows edges unused [])
    (finished : walkAll knows unused starts = .ok ()) :
    ∀ start ∈ starts, ChainEnds knows edges start.1 := by
  induction starts generalizing unused with
  | nil => simp
  | cons start rest ih =>
    obtain ⟨left, walked, others⟩ := Except.bind_eq_ok_iff.mp finished
    obtain ⟨ended, after⟩ := walkAliases_ok covers walked
    exact List.forall_mem_cons.mpr ⟨ended, ih after others⟩

theorem walkAll_error {starts : List (String × String)} {violation : Violation}
    (covers : Covers knows edges unused [])
    (failed : walkAll knows unused starts = .error violation) :
    IsAliasFault knows edges violation := by
  induction starts generalizing unused with
  | nil => cases failed
  | cons start rest ih =>
    rcases Except.bind_eq_error_iff.mp failed with here | ⟨left, walked, later⟩
    · exact walkAliases_error covers (by simp) here
    · exact ih (walkAliases_ok covers walked).2 later

theorem isAliasFault_of_violation {violation : Violation}
    (found : aliasViolation? knows edges = some violation) :
    IsAliasFault knows edges violation := by
  unfold aliasViolation? at found
  split at found
  · cases found
  · next failed =>
    cases found
    exact walkAll_error .start failed

theorem chainEnds_of_no_violation (sound : aliasViolation? knows edges = none) :
    ∀ edge ∈ edges, ChainEnds knows edges edge.1 := by
  unfold aliasViolation? at sound
  split at sound
  · next finished => exact walkAll_ok .start finished
  · cases sound

/-! With one alias of each name, a chain that ends is the only one from its name. -/

theorem aliasOf_unique (distinct : (edges.map Prod.fst).Nodup) {name first second : String}
    (left : AliasOf edges name first) (right : AliasOf edges name second) : first = second := by
  have same := List.inj_on_of_nodup_map distinct left right rfl
  exact congrArg Prod.snd same

theorem ChainEnds.acyclic (distinct : (edges.map Prod.fst).Nodup) {name : String}
    (ends : ChainEnds knows edges name) : ¬ Relation.TransGen (AliasOf edges) name name := by
  induction ends with
  | last name free =>
    intro cycle
    obtain ⟨next, edge, -⟩ := Relation.TransGen.head'_iff.mp cycle
    exact free next edge
  | link edge known rest ih =>
    intro cycle
    obtain ⟨next, first, back⟩ := Relation.TransGen.head'_iff.mp cycle
    rw [← aliasOf_unique distinct edge first] at back
    exact ih (Relation.TransGen.tail' back edge)

theorem ChainEnds.known_target (distinct : (edges.map Prod.fst).Nodup) {name target : String}
    (ends : ChainEnds knows edges name) (edge : AliasOf edges name target) :
    knows target = true := by
  cases ends with
  | last name free => exact absurd edge (free target)
  | link first known rest => rwa [aliasOf_unique distinct edge first]

/-- The walk accepts a graph exactly when no alias stands for an unknown name and none leads back to
itself. -/
theorem aliasViolation_eq_none_iff (distinct : (edges.map Prod.fst).Nodup) :
    aliasViolation? knows edges = none ↔
      (∀ edge ∈ edges, knows edge.2 = true) ∧
        ∀ name, ¬ Relation.TransGen (AliasOf edges) name name := by
  constructor
  · intro sound
    have ends := chainEnds_of_no_violation sound
    refine ⟨fun edge member => (ends edge member).known_target distinct member, ?_⟩
    intro name cycle
    obtain ⟨next, first, -⟩ := Relation.TransGen.head'_iff.mp cycle
    exact (ends (name, next) first).acyclic distinct cycle
  · rintro ⟨known, acyclic⟩
    cases found : aliasViolation? knows edges with
    | none => rfl
    | some violation =>
      have fault := isAliasFault_of_violation found
      cases violation with
      | aliasCycle name => exact absurd fault (acyclic name)
      | unknownAliasTarget name target =>
        have refused : knows target = false := fault.2
        rw [known (name, target) fault.1] at refused
        cases refused
      | _ => exact fault.elim

end FormatCompiler.Rules
