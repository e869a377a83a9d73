import FormatCompiler.Proofs.AliasGraph

/-!
The walk over the graph of aliases, told by marks. A name is visited once the walk that came by it
is over, and it is on the chain as long as that walk goes on. To take away the edges that were used
leaves the edges of the names without a mark, so the walk over the unused edges is the marked one.
It comes to an end for every graph, and what it finds fault with is at fault.
-/

namespace FormatCompiler.Rules

set_option autoImplicit false

open Relation (TransGen)

/-- How a walk goes on from a name, and the chain it ends with if it finds no fault. -/
inductive MarkedWalk (knows : String → Bool) (edges : List (String × String))
    (visited : List String) : List String → String → Except Violation (List String) → Prop
  | visited {chain : List String} {current : String} (met : current ∈ visited) :
      MarkedWalk knows edges visited chain current (.ok chain)
  | again {chain : List String} {current : String} (fresh : current ∉ visited)
      (met : current ∈ chain) :
      MarkedWalk knows edges visited chain current (.error (.aliasCycle current))
  | free {chain : List String} {current : String} (fresh : current ∉ visited)
      (new : current ∉ chain) (bare : ∀ target, ¬ AliasOf edges current target) :
      MarkedWalk knows edges visited chain current (.ok chain)
  | unknown {chain : List String} {current target : String} (fresh : current ∉ visited)
      (new : current ∉ chain) (edge : AliasOf edges current target)
      (refused : knows target = false) :
      MarkedWalk knows edges visited chain current (.error (.unknownAliasTarget current target))
  | next {chain : List String} {current target : String} {ending : Except Violation (List String)}
      (fresh : current ∉ visited) (new : current ∉ chain) (edge : AliasOf edges current target)
      (known : knows target = true)
      (rest : MarkedWalk knows edges visited (current :: chain) target ending) :
      MarkedWalk knows edges visited chain current ending

/-- How the walks from some edges go, one after the other: the chain of a walk is visited for those
after it. -/
inductive MarkedWalks (knows : String → Bool) (edges : List (String × String)) :
    List String → List (String × String) → Option Violation → Prop
  | done (visited : List String) : MarkedWalks knows edges visited [] none
  | fault {visited : List String} {start : String × String} {rest : List (String × String)}
      {violation : Violation}
      (walk : MarkedWalk knows edges visited [] start.1 (.error violation)) :
      MarkedWalks knows edges visited (start :: rest) (some violation)
  | pass {visited chain : List String} {start : String × String} {rest : List (String × String)}
      {result : Option Violation} (walk : MarkedWalk knows edges visited [] start.1 (.ok chain))
      (others : MarkedWalks knows edges (chain ++ visited) rest result) :
      MarkedWalks knows edges visited (start :: rest) result

/-- The unused edges are those of the names without a mark, and no name has both marks. -/
structure Unmarked (edges unused : List (String × String)) (visited chain : List String) : Prop where
  mem_iff : ∀ edge, edge ∈ unused ↔ edge ∈ edges ∧ edge.1 ∉ visited ∧ edge.1 ∉ chain
  disjoint : ∀ name ∈ chain, name ∉ visited

variable {knows : String → Bool} {edges unused : List (String × String)}
  {visited chain : List String} {current target : String}

namespace Unmarked

theorem start : Unmarked edges edges [] [] :=
  ⟨by simp, by simp⟩

theorem step (marks : Unmarked edges unused visited chain) (fresh : current ∉ visited) :
    Unmarked edges (edgesNotFrom current unused) visited (current :: chain) := by
  refine ⟨fun edge => ?_, List.forall_mem_cons.mpr ⟨fresh, marks.disjoint⟩⟩
  simp only [edgesNotFrom, List.mem_filter, marks.mem_iff, bne_iff_ne, List.mem_cons, not_or]
  tauto

/-- Between two walks the chain becomes visited. -/
theorem finish (marks : Unmarked edges unused visited chain) :
    Unmarked edges unused (chain ++ visited) [] := by
  refine ⟨fun edge => ?_, by simp⟩
  simp only [marks.mem_iff, List.mem_append, not_or, List.not_mem_nil, not_false_eq_true]
  tauto

theorem aliasOf_of_find (marks : Unmarked edges unused visited chain) {name : String}
    (found : unused.find? (fun edge => edge.1 == current) = some (name, target)) :
    AliasOf edges current target ∧ current ∉ visited := by
  have same : name = current := by simpa using List.find?_some found
  obtain ⟨edge, fresh, -⟩ := (marks.mem_iff _).mp (List.mem_of_find?_eq_some found)
  rw [same] at edge fresh
  exact ⟨edge, fresh⟩

/-- Where no unused edge goes on, an earlier walk has been, or there is none at all. -/
theorem walk_of_find_none (marks : Unmarked edges unused visited chain) (new : current ∉ chain)
    (none : unused.find? (fun edge => edge.1 == current) = none) :
    MarkedWalk knows edges visited chain current (.ok chain) := by
  by_cases met : current ∈ visited
  · exact .visited met
  · refine .free met new fun target edge => ?_
    have unused := (marks.mem_iff (current, target)).mpr ⟨edge, met, new⟩
    exact absurd (beq_self_eq_true current) (List.find?_eq_none.mp none _ unused)

end Unmarked

theorem markedWalk_of_error {violation : Violation} (marks : Unmarked edges unused visited chain)
    (failed : walkAliases knows unused chain current = .error violation) :
    MarkedWalk knows edges visited chain current (.error violation) := by
  fun_induction walkAliases knows unused chain current with
  | case1 unused chain current again =>
    cases failed
    have met : current ∈ chain := by simpa using again
    exact .again (marks.disjoint current met) met
  | case2 => cases failed
  | case3 unused chain current new name target found unknown =>
    cases failed
    obtain ⟨edge, fresh⟩ := marks.aliasOf_of_find found
    exact .unknown fresh (by simpa using new) edge (by simpa using unknown)
  | case4 unused chain current new name target found known ih =>
    obtain ⟨edge, fresh⟩ := marks.aliasOf_of_find found
    exact .next fresh (by simpa using new) edge (by simpa using known) (ih (marks.step fresh) failed)

theorem markedWalk_of_ok {left : List (String × String)}
    (marks : Unmarked edges unused visited chain)
    (finished : walkAliases knows unused chain current = .ok left) :
    ∃ ending, MarkedWalk knows edges visited chain current (.ok ending) ∧
      Unmarked edges left visited ending := by
  fun_induction walkAliases knows unused chain current with
  | case1 => cases finished
  | case2 unused chain current new none =>
    cases finished
    exact ⟨chain, marks.walk_of_find_none (by simpa using new) none, marks⟩
  | case3 => cases finished
  | case4 unused chain current new name target found known ih =>
    obtain ⟨edge, fresh⟩ := marks.aliasOf_of_find found
    obtain ⟨ending, rest, after⟩ := ih (marks.step fresh) finished
    exact ⟨ending, .next fresh (by simpa using new) edge (by simpa using known) rest, after⟩

theorem markedWalks_of_ok {starts : List (String × String)}
    (marks : Unmarked edges unused visited []) (finished : walkAll knows unused starts = .ok ()) :
    MarkedWalks knows edges visited starts none := by
  induction starts generalizing unused visited with
  | nil => exact .done visited
  | cons start rest ih =>
    obtain ⟨left, walked, others⟩ := Except.bind_eq_ok_iff.mp finished
    obtain ⟨chain, walk, after⟩ := markedWalk_of_ok marks walked
    exact .pass walk (ih after.finish others)

theorem markedWalks_of_error {starts : List (String × String)} {violation : Violation}
    (marks : Unmarked edges unused visited [])
    (failed : walkAll knows unused starts = .error violation) :
    MarkedWalks knows edges visited starts (some violation) := by
  induction starts generalizing unused visited with
  | nil => cases failed
  | cons start rest ih =>
    rcases Except.bind_eq_error_iff.mp failed with here | ⟨left, walked, later⟩
    · exact .fault (markedWalk_of_error marks here)
    · obtain ⟨chain, walk, after⟩ := markedWalk_of_ok marks walked
      exact .pass walk (ih after.finish later)

/-- The marked walks of a graph come to an end, with what is reported. -/
theorem markedWalks (knows : String → Bool) (edges : List (String × String)) :
    MarkedWalks knows edges [] edges (aliasViolation? knows edges) := by
  unfold aliasViolation?
  split
  · next finished => exact markedWalks_of_ok .start finished
  · next failed => exact markedWalks_of_error .start failed

/-! With one alias of each name there is one way to go on, so there is one end. -/

theorem MarkedWalk.unique (distinct : (edges.map Prod.fst).Nodup)
    {first second : Except Violation (List String)}
    (left : MarkedWalk knows edges visited chain current first)
    (right : MarkedWalk knows edges visited chain current second) : first = second := by
  induction left with
  | visited met =>
    cases right with
    | visited _ => rfl
    | again fresh _ => exact absurd met fresh
    | free fresh _ _ => exact absurd met fresh
    | unknown fresh _ _ _ => exact absurd met fresh
    | next fresh _ _ _ _ => exact absurd met fresh
  | again fresh met =>
    cases right with
    | visited marked => exact absurd marked fresh
    | again _ _ => rfl
    | free _ new _ => exact absurd met new
    | unknown _ new _ _ => exact absurd met new
    | next _ new _ _ _ => exact absurd met new
  | free fresh new bare =>
    cases right with
    | visited marked => exact absurd marked fresh
    | again _ met => exact absurd met new
    | free _ _ _ => rfl
    | unknown _ _ edge _ => exact absurd edge (bare _)
    | next _ _ edge _ _ => exact absurd edge (bare _)
  | unknown fresh new edge refused =>
    cases right with
    | visited marked => exact absurd marked fresh
    | again _ met => exact absurd met new
    | free _ _ bare => exact absurd edge (bare _)
    | unknown _ _ other _ => rw [aliasOf_unique distinct edge other]
    | next _ _ other known _ =>
      rw [aliasOf_unique distinct other edge, refused] at known
      cases known
  | next fresh new edge known rest ih =>
    cases right with
    | visited marked => exact absurd marked fresh
    | again _ met => exact absurd met new
    | free _ _ bare => exact absurd edge (bare _)
    | unknown _ _ other refused =>
      rw [aliasOf_unique distinct other edge, known] at refused
      cases refused
    | next _ _ other _ onward =>
      rw [aliasOf_unique distinct other edge] at onward
      exact ih onward

theorem MarkedWalks.unique (distinct : (edges.map Prod.fst).Nodup)
    {starts : List (String × String)} {first second : Option Violation}
    (left : MarkedWalks knows edges visited starts first)
    (right : MarkedWalks knows edges visited starts second) : first = second := by
  induction left with
  | done visited =>
    cases right
    rfl
  | fault walk =>
    cases right with
    | fault other => exact congrArg some (Except.error.inj (walk.unique distinct other))
    | pass other _ => cases walk.unique distinct other
  | pass walk others ih =>
    cases right with
    | fault other => cases walk.unique distinct other
    | pass other onward =>
      rw [Except.ok.inj (other.unique distinct walk)] at onward
      exact ih onward

theorem aliasOf_of_perm {order : List (String × String)} (perm : order.Perm edges) :
    AliasOf order = AliasOf edges := by
  funext name target
  exact propext perm.mem_iff

/-- For a graph with one alias of each name, the marked walks have one outcome, and it is the one
reported. A cycle is reported for a name that leads back to itself, an unknown target for an alias
of it, and nothing else is. In every order of the aliases, nothing is reported exactly when every
alias stands for a known name and none leads back to itself. -/
theorem aliasViolation_genuine (distinct : (edges.map Prod.fst).Nodup) :
    (∀ result, MarkedWalks knows edges [] edges result ↔ aliasViolation? knows edges = result) ∧
    (∀ name, aliasViolation? knows edges = some (.aliasCycle name) →
      TransGen (AliasOf edges) name name) ∧
    (∀ name target, aliasViolation? knows edges = some (.unknownAliasTarget name target) →
      (name, target) ∈ edges ∧ knows target = false) ∧
    (∀ violation, aliasViolation? knows edges = some violation →
      (∃ name, violation = .aliasCycle name) ∨
        ∃ name target, violation = .unknownAliasTarget name target) ∧
    ∀ order, order.Perm edges → (aliasViolation? knows order = none ↔
      (∀ edge ∈ edges, knows edge.2 = true) ∧
        ∀ edge ∈ edges, ¬ TransGen (AliasOf edges) edge.1 edge.1) := by
  refine ⟨fun result => ?_, fun name found => isAliasFault_of_violation found,
    fun name target found => isAliasFault_of_violation found, fun violation found => ?_,
    fun order perm => ?_⟩
  · constructor
    · exact fun walks => (markedWalks knows edges).unique distinct walks
    · rintro rfl
      exact markedWalks knows edges
  · have fault := isAliasFault_of_violation found
    cases violation with
    | aliasCycle name => exact .inl ⟨name, rfl⟩
    | unknownAliasTarget name target => exact .inr ⟨name, target, rfl⟩
    | _ => exact fault.elim
  · have also : (order.map Prod.fst).Nodup := (perm.map Prod.fst).nodup_iff.mpr distinct
    rw [aliasViolation_eq_none_iff also, aliasOf_of_perm perm]
    refine and_congr ⟨fun known edge member => known edge (perm.mem_iff.mpr member),
      fun known edge member => known edge (perm.mem_iff.mp member)⟩ ?_
    constructor
    · exact fun acyclic edge _ => acyclic edge.1
    · intro acyclic name cycle
      obtain ⟨next, first, -⟩ := Relation.TransGen.head'_iff.mp cycle
      exact acyclic (name, next) first cycle

/-- Two names that lead to each other, behind a name that leads to them. -/
theorem aliasViolation_genuine_cycle :
    let edges := [("c", "a"), ("a", "b"), ("b", "a")]
    ∃ name, aliasViolation? (fun _ => true) edges = some (.aliasCycle name) ∧
      TransGen (AliasOf edges) name name := by
  intro edges
  have distinct : (edges.map Prod.fst).Nodup := by decide
  obtain ⟨-, cycles, unknowns, kinds, accepted⟩ :=
    @aliasViolation_genuine (fun _ => true) edges distinct
  cases found : aliasViolation? (fun _ => true) edges with
  | none =>
    obtain ⟨-, acyclic⟩ := (accepted edges (.refl edges)).mp found
    have back : TransGen (AliasOf edges) "a" "a" :=
      .tail (.single (show ("a", "b") ∈ edges by decide)) (show ("b", "a") ∈ edges by decide)
    exact absurd back (acyclic ("a", "b") (by decide))
  | some violation =>
    rcases kinds violation found with ⟨name, rfl⟩ | ⟨name, target, rfl⟩
    · exact ⟨name, rfl, cycles name found⟩
    · exact absurd (unknowns name target found).2 (by decide)

end FormatCompiler.Rules
