import FormatCompiler.Proofs.Retyping
import FormatCompiler.Proofs.ScopeTable

/-!
Types declared in another order. With distinct names an alias is looked up by its name alone, and
with distinct paths the table of scopes is the same in whatever order they are entered. So every
type means the same in every scope.
-/

namespace FormatCompiler

set_option autoImplicit false

namespace AliasTable

/-- Types mean the same in whatever order they are declared, also behind the declarations of an
inner scope. -/
theorem resolve_eq_of_perm {types also : List TypeDecl}
    (distinct : (types.map TypeDecl.name).Nodup) (perm : types.Perm also) (own : List TypeDecl) :
    (ofTypes (types ++ own)).resolve = (ofTypes (also ++ own)).resolve := by
  have distinct' : (also.map TypeDecl.name).Nodup :=
    (perm.map TypeDecl.name).nodup_iff.mp distinct
  refine resolve_congr fun name => ?_
  have same : (ofTypes types).target? name = (ofTypes also).target? name := by
    ext ref
    rw [target_eq_some_iff distinct, target_eq_some_iff distinct']
    simp only [perm.mem_iff]
  rw [target_append, target_append, same]

end AliasTable

namespace Module

section Insertion

variable {path other : String} (format kept : Format) (rest : List (String × Format))

theorem insert_before (less : path < other) :
    insert path format ((other, kept) :: rest) = (path, format) :: (other, kept) :: rest := by
  rw [insert, if_pos less]

theorem insert_over : insert path format ((path, kept) :: rest) = (path, format) :: rest := by
  rw [insert, if_neg (lt_irrefl path), if_pos rfl]

theorem insert_behind (greater : other < path) :
    insert path format ((other, kept) :: rest) = (other, kept) :: insert path format rest := by
  rw [insert, if_neg (not_lt_of_gt greater), if_neg (ne_of_gt greater)]

/-- Scopes with different paths can be entered in either order. -/
theorem insert_comm_of_lt {first second : String} (less : first < second) (left right : Format)
    (nested : List (String × Format)) :
    insert first left (insert second right nested) =
      insert second right (insert first left nested) := by
  induction nested with
  | nil =>
    change insert first left [(second, right)] = insert second right [(first, left)]
    rw [insert_before _ _ _ less, insert_behind _ _ _ less]
    rfl
  | cons entry rest ih =>
    obtain ⟨other, kept⟩ := entry
    rcases lt_trichotomy second other with before | here | behind
    · rw [insert_before _ _ _ before, insert_before _ _ _ less,
        insert_before _ _ _ (less.trans before), insert_behind _ _ _ less,
        insert_before _ _ _ before]
    · subst here
      rw [insert_over, insert_before _ _ _ less, insert_before _ _ _ less, insert_behind _ _ _ less,
        insert_over]
    · rw [insert_behind _ _ _ behind]
      rcases lt_trichotomy first other with before | here | after
      · rw [insert_before _ _ _ before, insert_before _ _ _ before, insert_behind _ _ _ less,
          insert_behind _ _ _ behind]
      · subst here
        rw [insert_over, insert_over, insert_behind _ _ _ less]
      · rw [insert_behind _ _ _ after, insert_behind _ _ _ after, insert_behind _ _ _ behind, ih]

theorem insert_comm {first second : String} (differ : first ≠ second) (left right : Format)
    (nested : List (String × Format)) :
    insert first left (insert second right nested) =
      insert second right (insert first left nested) := by
  rcases lt_or_gt_of_ne differ with less | greater
  · exact insert_comm_of_lt less left right nested
  · exact (insert_comm_of_lt greater right left nested).symm

end Insertion

section Scopes

variable {root : Format} {nested table : List (String × Format)} {decls others : List TypeDecl}

/-- No two declarations that carry formats have one path. -/
def PathsDiffer (root : Format) (decls : List TypeDecl) : Prop :=
  decls.Pairwise fun first second => first.carries = true → second.carries = true →
    pathOf root first.name ≠ pathOf root second.name

theorem addScopes_swap {first second : TypeDecl}
    (differ : first.carries = true → second.carries = true →
      pathOf root first.name ≠ pathOf root second.name)
    (built : addScopes root nested (first :: second :: decls) = .ok table) :
    addScopes root nested (second :: first :: decls) = .ok table := by
  simp only [addScopes_cons_eq_ok] at built ⊢
  rcases built with ⟨plain, rest⟩ | ⟨carries, format, carried, rest⟩
  · rcases rest with ⟨also, rest⟩ | ⟨also, other, carriedAlso, rest⟩
    · exact .inl ⟨also, .inl ⟨plain, rest⟩⟩
    · exact .inr ⟨also, other, carriedAlso, .inl ⟨plain, rest⟩⟩
  · rcases rest with ⟨also, rest⟩ | ⟨also, other, carriedAlso, rest⟩
    · exact .inl ⟨also, .inr ⟨carries, format, carried, rest⟩⟩
    · rw [insert_comm (differ carries also).symm] at rest
      exact .inr ⟨also, other, carriedAlso, .inr ⟨carries, format, carried, rest⟩⟩

/-- The table of scopes is the same in whatever order the declarations are entered. -/
theorem addScopes_of_perm (perm : decls.Perm others) (differ : PathsDiffer root decls)
    (built : addScopes root nested decls = .ok table) :
    addScopes root nested others = .ok table := by
  induction perm generalizing nested with
  | nil => exact built
  | cons decl _ ih =>
    have rest := (List.pairwise_cons.mp differ).2
    rcases addScopes_cons_eq_ok.mp built with ⟨plain, built⟩ | ⟨carries, format, carried, built⟩
    · exact addScopes_cons_eq_ok.mpr (.inl ⟨plain, ih rest built⟩)
    · exact addScopes_cons_eq_ok.mpr (.inr ⟨carries, format, carried, ih rest built⟩)
  | swap first second decls =>
    exact addScopes_swap ((List.pairwise_cons.mp differ).1 first List.mem_cons_self) built
  | trans front _ ihFront ihBack =>
    refine ihBack ?_ (ihFront differ built)
    exact differ.perm front fun apart carries also => (apart also carries).symm

/-- The root gives its name to the paths, and nothing else to the table. -/
theorem addScopes_root (root : Format) (types : List TypeDecl) (nested : List (String × Format))
    (decls : List TypeDecl) :
    addScopes { root with types } nested decls = addScopes root nested decls := by
  induction decls generalizing nested with
  | nil => rfl
  | cons decl decls ih => simp only [addScopes, ih, pathOf]

end Scopes

/-- A format with its types in another order has the same scopes, in which types mean the same. -/
theorem ofFormat_of_perm {format : Format} {module : Module} {types : List TypeDecl}
    (distinct : (format.types.map TypeDecl.name).Nodup) (differ : PathsDiffer format format.types)
    (perm : format.types.Perm types) (built : ofFormat format = .ok module) :
    ofFormat { format with types } = .ok (module.retyped types) ∧ module.SameMeaning types := by
  obtain ⟨rfl, table⟩ := ofFormat_eq_ok.mp built
  constructor
  · refine ofFormat_eq_ok.mpr ⟨rfl, ?_⟩
    rw [addScopes_root]
    exact addScopes_of_perm perm differ table
  · exact fun own => (AliasTable.resolve_eq_of_perm distinct perm own).symm

end Module

end FormatCompiler
