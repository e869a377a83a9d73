import Mathlib.Data.List.Dedup
import Mathlib.Data.List.Perm.Lattice
import Mathlib.Data.String.Basic
import FormatCompiler.Module.Basic
import FormatCompiler.Proofs.EmbeddedFormat
import FormatCompiler.Proofs.WellFormed

/-!
The table of the scopes nested in a format. Each type that carries a format is entered under its
path, and a later one takes the place of an earlier one with the same path. So the table is complete
exactly when no two of these types share a path, and under distinct names two types do so only if
one is called like the other behind the name of the root.
-/

namespace FormatCompiler

set_option autoImplicit false

/-- Whether a type carries a format of its own. -/
def TypeDecl.carries (decl : TypeDecl) : Bool :=
  decl.type.payload?.isSome

/-- The types of a format that carry a format. -/
def Format.carriers (format : Format) : List TypeDecl :=
  format.types.filter TypeDecl.carries

/-- The format that a type carries. -/
def TypeDecl.carried? (decl : TypeDecl) : Option Format := do
  (Listing.unembed decl.name (← decl.type.payload?)).toOption

namespace Name

theorem relativeTo_eq_some_iff {root path relative : String} :
    relativeTo root path = some relative ↔ path = root ++ "::" ++ relative := by
  have whole : (root ++ "::" ++ relative).toList = (root.toList ++ [':', ':']) ++ relative.toList := by
    simp
  unfold relativeTo dropPrefix
  rw [← String.toList_inj, whole]
  by_cases front : root.toList ++ [':', ':'] <+: path.toList
  · obtain ⟨rest, shape⟩ := front
    have begins : (root.toList ++ [':', ':']).isPrefixOf path.toList = true := by
      rw [List.isPrefixOf_iff_prefix]
      exact ⟨rest, shape⟩
    rw [if_pos begins, ← shape, List.drop_left, Option.map_some, Option.some.injEq,
      List.append_cancel_left_eq, ← String.toList_inj, String.toList_ofList]
  · have differs : ¬ (root.toList ++ [':', ':']).isPrefixOf path.toList = true := by
      rwa [List.isPrefixOf_iff_prefix]
    rw [if_neg differs]
    refine iff_of_false nofun fun shape => front ?_
    rw [shape]
    exact List.prefix_append _ _

end Name

namespace Module

/-- Two names stand for one path if they are the same, or if one is the other behind the name of the
root; the other must then not be behind that name itself. -/
theorem pathOf_eq_iff (root : Format) (first second : String) :
    pathOf root first = pathOf root second ↔ first = second ∨
      (first = root.name ++ "::" ++ second ∧ Name.relativeTo root.name second = none) ∨
      (second = root.name ++ "::" ++ first ∧ Name.relativeTo root.name first = none) := by
  unfold pathOf
  rw [← Name.relativeTo_eq_some_iff, ← Name.relativeTo_eq_some_iff]
  cases left : Name.relativeTo root.name first with
  | none =>
    cases right : Name.relativeTo root.name second with
    | none => simp
    | some inner =>
      have differ : first ≠ second := by
        rintro rfl
        rw [left] at right
        cases right
      simp [differ, eq_comm]
  | some outer =>
    cases right : Name.relativeTo root.name second with
    | none =>
      have differ : first ≠ second := by
        rintro rfl
        rw [left] at right
        cases right
      simp [differ]
    | some inner =>
      have same : first = second ↔ outer = inner := by
        rw [Name.relativeTo_eq_some_iff] at left right
        rw [left, right, String.append_right_inj]
      simp [same]

theorem pathOf_eq_root_iff (root : Format) {name : String} (named : name ≠ "") :
    pathOf root name = "" ↔ name = root.name ++ "::" := by
  have rooted : Name.relativeTo root.name name = some "" ↔ name = root.name ++ "::" := by
    rw [Name.relativeTo_eq_some_iff, String.append_empty]
  rw [← rooted, pathOf]
  cases Name.relativeTo root.name name with
  | none => simp [named]
  | some relative => simp

theorem lookup_cons (path other : String) (format : Format) (nested : List (String × Format)) :
    ((path, format) :: nested).lookup other =
      if other = path then some format else nested.lookup other := by
  rw [List.lookup_cons]
  by_cases same : other = path
  · simp [same]
  · rw [beq_false_of_ne same, if_neg same]

theorem lookup_insert (path other : String) (format : Format) (nested : List (String × Format)) :
    (insert path format nested).lookup other =
      if other = path then some format else nested.lookup other := by
  induction nested with
  | nil => rw [insert, lookup_cons]
  | cons entry rest ih =>
    obtain ⟨here, kept⟩ := entry
    rw [insert]
    split
    · rw [lookup_cons]
    · split
      · next found =>
        subst found
        rw [lookup_cons, lookup_cons]
        split <;> rfl
      · next differ =>
        rw [lookup_cons, lookup_cons, ih]
        by_cases same : other = here
        · rw [if_pos same, if_pos same, if_neg fun equal => differ (equal.symm.trans same)]
        · rw [if_neg same, if_neg same]

theorem mem_paths_insert (path other : String) (format : Format) (nested : List (String × Format)) :
    other ∈ (insert path format nested).map Prod.fst ↔
      other = path ∨ other ∈ nested.map Prod.fst := by
  induction nested with
  | nil => simp [insert]
  | cons entry rest ih =>
    rw [insert]
    split
    · simp
    · split
      · next found => simp [found]
      · rw [List.map_cons, List.mem_cons, ih, List.map_cons, List.mem_cons]
        exact or_left_comm

/-- The paths of a table stand in order. -/
def Ordered (nested : List (String × Format)) : Prop :=
  (nested.map Prod.fst).Pairwise (· < ·)

theorem ordered_insert (path : String) (format : Format) {nested : List (String × Format)}
    (ordered : Ordered nested) : Ordered (insert path format nested) := by
  induction nested with
  | nil => exact List.pairwise_singleton _ _
  | cons entry rest ih =>
    obtain ⟨here, kept⟩ := entry
    obtain ⟨before, tail⟩ := List.pairwise_cons.mp ordered
    rw [insert]
    split
    · next less =>
      refine List.pairwise_cons.mpr ⟨?_, ordered⟩
      exact List.forall_mem_cons.mpr ⟨less, fun other member => less.trans (before other member)⟩
    · next notLess =>
      split
      · next found =>
        subst found
        exact ordered
      · next differ =>
        have greater : here < path := lt_of_le_of_ne (not_lt.mp notLess) (Ne.symm differ)
        refine List.pairwise_cons.mpr ⟨?_, ih tail⟩
        intro other member
        rcases (mem_paths_insert path other format rest).mp member with rfl | inside
        · exact greater
        · exact before other inside

/-- What one declaration does to the table. -/
theorem addScopes_cons_eq_ok {root : Format} {nested result : List (String × Format)}
    {decl : TypeDecl} {decls : List TypeDecl} :
    addScopes root nested (decl :: decls) = .ok result ↔
      (decl.carries = false ∧ addScopes root nested decls = .ok result) ∨
      (decl.carries = true ∧ ∃ format, decl.carried? = some format ∧
        addScopes root (insert (pathOf root decl.name) format nested) decls = .ok result) := by
  rw [addScopes, TypeDecl.carried?, TypeDecl.carries]
  cases payload : decl.type.payload? with
  | none => simp
  | some text =>
    rw [Except.bind_eq_ok_iff]
    simp [Except.toOption_eq_some_iff]

section

variable {root : Format} {nested result : List (String × Format)} {decls : List TypeDecl}

theorem addScopes_ordered (built : addScopes root nested decls = .ok result)
    (ordered : Ordered nested) : Ordered result := by
  induction decls generalizing nested with
  | nil =>
    cases built
    exact ordered
  | cons decl decls ih =>
    rcases addScopes_cons_eq_ok.mp built with ⟨-, rest⟩ | ⟨-, format, -, rest⟩
    · exact ih rest ordered
    · exact ih rest (ordered_insert _ _ ordered)

theorem mem_paths_addScopes (built : addScopes root nested decls = .ok result) (path : String) :
    path ∈ result.map Prod.fst ↔ path ∈ nested.map Prod.fst ∨
      ∃ decl ∈ decls, decl.carries = true ∧ pathOf root decl.name = path := by
  induction decls generalizing nested with
  | nil =>
    cases built
    simp
  | cons decl decls ih =>
    rcases addScopes_cons_eq_ok.mp built with ⟨plain, rest⟩ | ⟨carries, format, -, rest⟩
    · rw [ih rest]
      simp [plain]
    · rw [ih rest, mem_paths_insert]
      simp only [List.exists_mem_cons_iff, carries, true_and, eq_comm (a := path)]
      exact or_assoc.trans or_left_comm

/-- Declarations with other paths leave an entry alone. -/
theorem lookup_addScopes_kept (built : addScopes root nested decls = .ok result) {path : String}
    (others : ∀ decl ∈ decls, decl.carries = true → pathOf root decl.name ≠ path) :
    result.lookup path = nested.lookup path := by
  induction decls generalizing nested with
  | nil =>
    cases built
    rfl
  | cons decl decls ih =>
    obtain ⟨first, rest⟩ := List.forall_mem_cons.mp others
    rcases addScopes_cons_eq_ok.mp built with ⟨-, built⟩ | ⟨carries, format, -, built⟩
    · exact ih built rest
    · rw [ih built rest, lookup_insert, if_neg (first carries).symm]

/-- The last declaration with a path is the one that counts. -/
theorem lookup_addScopes_last {front back : List TypeDecl} {decl : TypeDecl}
    (built : addScopes root nested (front ++ decl :: back) = .ok result)
    (carries : decl.carries = true)
    (last : ∀ later ∈ back, later.carries = true → pathOf root later.name ≠ pathOf root decl.name) :
    ∃ format, decl.carried? = some format ∧
      result.lookup (pathOf root decl.name) = some format := by
  -- whatever the declarations before it enter, this one overwrites
  induction front generalizing nested with
  | nil =>
    rcases addScopes_cons_eq_ok.mp built with ⟨plain, -⟩ | ⟨-, format, carried, built⟩
    · rw [carries] at plain
      cases plain
    · refine ⟨format, carried, ?_⟩
      rw [lookup_addScopes_kept built last, lookup_insert, if_pos rfl]
  | cons first front ih =>
    rcases addScopes_cons_eq_ok.mp built with ⟨-, built⟩ | ⟨-, _, -, built⟩
    · exact ih built
    · exact ih built

/-- A scope of the table was there before, or some declaration carries it. -/
theorem carrier_of_lookup_addScopes (built : addScopes root nested decls = .ok result)
    {path : String} {format : Format} (stored : result.lookup path = some format) :
    nested.lookup path = some format ∨
      ∃ decl ∈ decls, decl.carries = true ∧ pathOf root decl.name = path ∧
        decl.carried? = some format := by
  induction decls generalizing nested with
  | nil =>
    cases built
    exact Or.inl stored
  | cons decl decls ih =>
    rcases addScopes_cons_eq_ok.mp built with ⟨-, built⟩ | ⟨carries, inner, carried, built⟩
    · exact (ih built).imp_right fun ⟨other, member, rest⟩ =>
        ⟨other, List.mem_cons_of_mem _ member, rest⟩
    · rcases ih built with before | ⟨other, member, rest⟩
      · rw [lookup_insert] at before
        split at before
        · next here =>
          cases before
          exact Or.inr ⟨decl, List.mem_cons_self, carries, here.symm, carried⟩
        · exact Or.inl before
      · exact Or.inr ⟨other, List.mem_cons_of_mem _ member, rest⟩

end

theorem ofFormat_eq_ok {root : Format} {module : Module} :
    ofFormat root = .ok module ↔
      module.root = root ∧ addScopes root [] root.types = .ok module.nested := by
  rw [ofFormat, Except.bind_eq_ok_iff]
  constructor
  · rintro ⟨nested, built, same⟩
    cases same
    exact ⟨rfl, built⟩
  · rintro ⟨rfl, built⟩
    exact ⟨module.nested, built, rfl⟩

section

variable {root : Format} {module : Module}

theorem nodup_paths (built : ofFormat root = .ok module) : module.paths.Nodup :=
  (addScopes_ordered (ofFormat_eq_ok.mp built).2 List.Pairwise.nil).imp ne_of_lt

/-- The paths of a module are those of the types that carry formats. -/
theorem mem_paths_iff (built : ofFormat root = .ok module) (path : String) :
    path ∈ module.paths ↔ ∃ decl ∈ root.carriers, pathOf root decl.name = path := by
  rw [paths, mem_paths_addScopes (ofFormat_eq_ok.mp built).2 path]
  simp [Format.carriers, and_assoc]

theorem carrier_of_lookup (built : ofFormat root = .ok module) {path : String} {format : Format}
    (stored : module.nested.lookup path = some format) :
    ∃ decl ∈ root.carriers, pathOf root decl.name = path ∧ decl.carried? = some format := by
  rcases carrier_of_lookup_addScopes (ofFormat_eq_ok.mp built).2 stored with
    before | ⟨decl, member, carries, path, carried⟩
  · cases before
  · exact ⟨decl, List.mem_filter.mpr ⟨member, carries⟩, path, carried⟩

/-- There are as many nested scopes as types that carry formats exactly when no path is used
twice. -/
theorem nested_length_iff (built : ofFormat root = .ok module) :
    module.nested.length = root.carriers.length ↔
      (root.carriers.map fun decl => pathOf root decl.name).Nodup := by
  have same : module.paths.Perm (root.carriers.map fun decl => pathOf root decl.name).dedup := by
    rw [List.perm_ext_iff_of_nodup (nodup_paths built) (List.nodup_dedup _)]
    intro path
    rw [mem_paths_iff built, List.mem_dedup, List.mem_map]
  have size : module.nested.length =
      (root.carriers.map fun decl => pathOf root decl.name).dedup.length := by
    rw [← same.length_eq, paths, List.length_map]
  rw [size]
  constructor
  · intro full
    rw [← List.dedup_eq_self]
    exact (List.dedup_sublist _).eq_of_length (by rw [full, List.length_map])
  · intro distinct
    rw [distinct.dedup, List.length_map]

/-- Among types of distinct names, two share a path only if one is called like the other behind the
name of the root. -/
theorem nodup_pathOf_iff (distinct : (root.types.map TypeDecl.name).Nodup) :
    (root.carriers.map fun decl => pathOf root decl.name).Nodup ↔
      ¬ ∃ plain ∈ root.carriers, ∃ rooted ∈ root.carriers,
        rooted.name = root.name ++ "::" ++ plain.name ∧
          ∀ deeper, plain.name ≠ root.name ++ "::" ++ deeper := by
  have relative : ∀ name, Name.relativeTo root.name name = none ↔
      ∀ deeper, name ≠ root.name ++ "::" ++ deeper := by
    intro name
    simp only [Option.eq_none_iff_forall_ne_some, ne_eq, Name.relativeTo_eq_some_iff]
  have each : root.carriers.Nodup := (List.Nodup.of_map _ distinct).filter _
  rw [List.nodup_map_iff_inj_on each]
  constructor
  · rintro apart ⟨plain, member, rooted, other, called, alone⟩
    have same : pathOf root plain.name = pathOf root rooted.name :=
      (pathOf_eq_iff root _ _).mpr (Or.inr (Or.inr ⟨called, (relative _).mpr alone⟩))
    have equal := apart plain member rooted other same
    exact alone rooted.name (equal ▸ called)
  · intro apart first member second other same
    have names : first.name = second.name := by
      rcases (pathOf_eq_iff root _ _).mp same with equal | ⟨called, alone⟩ | ⟨called, alone⟩
      · exact equal
      · exact absurd ⟨second, other, first, member, called, (relative _).mp alone⟩ apart
      · exact absurd ⟨first, member, second, other, called, (relative _).mp alone⟩ apart
    exact List.inj_on_of_nodup_map distinct (List.mem_of_mem_filter member)
      (List.mem_of_mem_filter other) names

end

end Module

/-- The rules on the names of types. -/
theorem Format.typeNames_of_valid {format : Format} (valid : format.violation? = none) :
    (∀ decl ∈ format.types, decl.name ≠ "") ∧ (format.types.map TypeDecl.name).Nodup := by
  unfold Format.violation? at valid
  simp only [Rules.orElse_eq_none, Rules.typeViolation_eq_none_iff] at valid
  obtain ⟨-, ⟨named, -, distinct, -⟩, -⟩ := valid
  exact ⟨named, distinct⟩

theorem Format.fields_of_valid {format : Format} (valid : format.violation? = none) :
    ∀ field ∈ format.fields, field.WellFormed format := by
  have distinct := (typeNames_of_valid valid).2
  unfold Format.violation? at valid
  simp only [Rules.orElse_eq_none, List.findSome?_eq_none_iff] at valid
  obtain ⟨-, -, -, fields, -⟩ := valid
  intro field member
  exact (Rules.fieldViolation_eq_none_iff distinct field).mp (fields field member)

theorem Format.enums_of_valid {format : Format} (valid : format.violation? = none) :
    ∀ decl ∈ format.enums, decl.WellFormed := by
  unfold Format.violation? at valid
  simp only [Rules.orElse_eq_none, Rules.enumViolation_eq_none_iff] at valid
  exact valid.2.2.1.1

section

variable (name : String) (inner : Format)

theorem TypeDecl.carries_embed : TypeDecl.carries { name, type := .embed inner } = true := by
  rw [TypeDecl.carries, Listing.payload_embed]
  rfl

theorem TypeDecl.carried_embed (listable : inner.IsListable) :
    TypeDecl.carried? { name, type := .embed inner } = some inner.normal := by
  simp only [TypeDecl.carried?, Listing.payload_embed, Option.bind_eq_bind, Option.bind_some,
    Listing.unembed_payload, Listing.read_of_listable listable]
  rfl

end

/-- A format whose types all carry formats keeps the rules if its fields do and its names are there
and distinct. -/
theorem Format.violation_of_carriedTypes {name : String} {order : ByteOrder}
    {imports : List String} {types : List TypeDecl} {fields : List Field} (named : name ≠ "")
    (distinct : (name :: types.map TypeDecl.name).Nodup)
    (carriers : ∀ decl ∈ types, decl.name ≠ "" ∧ ∃ inner, decl.type = .embed inner)
    (known : ∀ field ∈ fields, Rules.fieldViolation? { name, order, imports, types, fields }
      (.ofTypes types) field = none) :
    Format.violation? { name, order, imports, types, fields } = none := by
  obtain ⟨own, distinct⟩ := List.nodup_cons.mp distinct
  have aliases : Format.aliasEdges { name, order, imports, types, fields } = [] := by
    refine List.filterMap_eq_nil_iff.mpr ?_
    intro decl member
    obtain ⟨-, inner, type⟩ := carriers decl member
    rw [type, Listing.payload_embed]
    rfl
  have targets : ∀ decl ∈ types, decl.type ≠ .named "" := by
    intro decl member
    obtain ⟨-, inner, type⟩ := carriers decl member
    simp [type, TypeRef.embed_eq, TypeRef.scopeMark]
  have apart : (types.map TypeDecl.name).Disjoint [name] := by
    rw [List.disjoint_singleton]
    exact own
  simp only [Format.violation?, Rules.orElse_eq_none, Rules.when_eq_none,
    Rules.typeViolation_eq_none_iff, aliases, List.findSome?_eq_none_iff]
  refine ⟨by simpa using named, ⟨fun decl member => (carriers decl member).1, targets, distinct,
    apart⟩, rfl, known, by simp, rfl, rfl⟩

/-- It does if the fields just refer to what it knows. -/
theorem Format.violation_of_carriers {name : String} {order : ByteOrder} {imports : List String}
    {types : List TypeDecl} {fields : List Field} (named : name ≠ "")
    (distinct : (name :: types.map TypeDecl.name).Nodup)
    (carriers : ∀ decl ∈ types, decl.name ≠ "" ∧ ∃ inner, decl.type = .embed inner)
    (references : ∀ field ∈ fields, ∃ id target, id ≠ "" ∧ target ≠ "" ∧
      Format.Knows { name, order, imports, types, fields } target ∧
        field = { id, type := .named target }) :
    Format.violation? { name, order, imports, types, fields } = none := by
  refine violation_of_carriedTypes named distinct carriers fun field member => ?_
  obtain ⟨id, target, present, inhabited, known, rfl⟩ := references field member
  simp only [Rules.fieldViolation?, Rules.orElse_eq_none, Rules.when_eq_none,
    Rules.fieldTypeViolation_eq_none_iff]
  refine ⟨by simpa using present, ?_, rfl, rfl, rfl, rfl⟩
  rintro _ ⟨rfl⟩
  exact ⟨inhabited, known⟩

/-- It is so if the fields refer to the types. -/
theorem Format.violation_of_embeds {name : String} {order : ByteOrder} {types : List TypeDecl}
    {fields : List Field} (named : name ≠ "") (distinct : (name :: types.map TypeDecl.name).Nodup)
    (carriers : ∀ decl ∈ types, decl.name ≠ "" ∧ ∃ inner, decl.type = .embed inner)
    (references : ∀ field ∈ fields, ∃ id, id ≠ "" ∧ ∃ decl ∈ types,
      field = { id, type := .named decl.name }) :
    Format.violation? { name, order, types, fields } = none := by
  refine violation_of_carriers named distinct carriers ?_
  intro field member
  obtain ⟨id, present, decl, declared, rfl⟩ := references field member
  exact ⟨id, decl.name, present, (carriers decl declared).1,
    Or.inr (Or.inl ⟨decl, declared, rfl⟩), rfl⟩

namespace Module

/-- A type that carries no format enters nothing. -/
theorem addScopes_bare {root : Format} {nested : List (String × Format)} {decl : TypeDecl}
    (bare : decl.type.payload? = none) (decls : List TypeDecl) :
    addScopes root nested (decl :: decls) = addScopes root nested decls := by
  rw [addScopes, bare]

/-- A type that carries a format which can be listed enters its normal form. -/
theorem addScopes_embed (root : Format) (nested : List (String × Format)) (name : String)
    {inner : Format} (listable : inner.IsListable) (decls : List TypeDecl) :
    addScopes root nested ({ name, type := .embed inner } :: decls) =
      addScopes root (insert (pathOf root name) inner.normal nested) decls := by
  rw [addScopes, Listing.payload_embed]
  simp only [Listing.unembed_payload, Listing.read_of_listable listable]
  rfl

/-- What becomes of the formats that types carry. Of the types with one path the last is stored
under it. So all of them are kept, each under its path, exactly when no type is called like another
one behind the name of the root. -/
theorem nested_complete_iff {root : Format} {module : Module} (valid : root.violation? = none)
    (built : ofFormat root = .ok module) :
    (∀ front decl back, root.types = front ++ decl :: back → decl.carries = true →
      (∀ later ∈ back, later.carries = true → pathOf root later.name ≠ pathOf root decl.name) →
      ∃ format, decl.carried? = some format ∧
        module.nested.lookup (pathOf root decl.name) = some format) ∧
    ((module.nested.length = root.carriers.length ∧
        ∀ decl ∈ root.carriers, ∃ format, decl.carried? = some format ∧
          module.nested.lookup (pathOf root decl.name) = some format) ↔
      ¬ ∃ plain ∈ root.carriers, ∃ rooted ∈ root.carriers,
        rooted.name = root.name ++ "::" ++ plain.name ∧
          ∀ deeper, plain.name ≠ root.name ++ "::" ++ deeper) := by
  have last : ∀ front decl back, root.types = front ++ decl :: back → decl.carries = true →
      (∀ later ∈ back, later.carries = true → pathOf root later.name ≠ pathOf root decl.name) →
      ∃ format, decl.carried? = some format ∧
        module.nested.lookup (pathOf root decl.name) = some format := by
    intro front decl back shape carries later
    exact lookup_addScopes_last (shape ▸ (ofFormat_eq_ok.mp built).2) carries later
  have distinct := (Format.typeNames_of_valid valid).2
  refine ⟨last, ?_⟩
  rw [← nodup_pathOf_iff distinct, nested_length_iff built, and_iff_left_of_imp]
  intro apart decl member
  obtain ⟨declared, carries⟩ := List.mem_filter.mp member
  obtain ⟨front, back, shape⟩ := List.append_of_mem declared
  refine last front decl back shape carries ?_
  intro later behind carriesToo same
  have listed : later ∈ root.carriers := by
    refine List.mem_filter.mpr ⟨?_, carriesToo⟩
    rw [shape]
    exact List.mem_append_right _ (List.mem_cons_of_mem _ behind)
  have equal : later = decl := List.inj_on_of_nodup_map apart listed member same
  have once := List.Nodup.of_map _ (shape ▸ distinct)
  exact (List.nodup_cons.mp (List.nodup_append.mp once).2.1).1 (equal ▸ behind)

/-- A name behind that of the root twice over is no rival of the name behind it once. -/
theorem nested_complete_iff_deeper :
    let first : Format := { name := "first", order := .little }
    let second : Format := { name := "second", order := .big }
    let root : Format :=
      { name := "top", order := .little,
        types := [⟨"top::a", .embed first⟩, ⟨"top::top::a", .embed second⟩] }
    root.violation? = none ∧ ∃ module, ofFormat root = .ok module ∧ module.nested.length = 2 ∧
      module.nested.lookup "a" = some first ∧ module.nested.lookup "top::a" = some second := by
  intro first second root
  have firstListable : first.IsListable := ⟨by decide, by decide⟩
  have secondListable : second.IsListable := ⟨by decide, by decide⟩
  have valid : root.violation? = none := by
    refine Format.violation_of_embeds (by decide) (by decide) ?_ (by simp)
    simp only [List.forall_mem_cons]
    exact ⟨⟨by decide, first, rfl⟩, ⟨by decide, second, rfl⟩, by simp⟩
  have paths : pathOf root "top::a" = "a" ∧ pathOf root "top::top::a" = "top::a" := by
    change (Name.relativeTo "top" "top::a").getD "top::a" = "a" ∧
      (Name.relativeTo "top" "top::top::a").getD "top::top::a" = "top::a"
    decide
  have built : ofFormat root = .ok { root, nested := [("a", first), ("top::a", second)] } := by
    refine ofFormat_eq_ok.mpr ⟨rfl, ?_⟩
    rw [addScopes_embed _ _ _ firstListable, addScopes_embed _ _ _ secondListable, paths.1, paths.2]
    rfl
  have carriers : root.carriers = root.types := by
    simp [Format.carriers, root, TypeDecl.carries_embed]
  have apart : ¬ ∃ plain ∈ root.carriers, ∃ rooted ∈ root.carriers,
      rooted.name = root.name ++ "::" ++ plain.name ∧
        ∀ deeper, plain.name ≠ root.name ++ "::" ++ deeper := by
    rw [carriers]
    rintro ⟨plain, member, -, -, -, alone⟩
    rcases List.mem_pair.mp member with rfl | rfl
    · exact alone "a" rfl
    · exact alone "top::a" rfl
  obtain ⟨size, stored⟩ := (nested_complete_iff valid built).2.mpr apart
  rw [carriers] at size stored
  obtain ⟨firstFound, firstCarried, firstStored⟩ := stored ⟨"top::a", .embed first⟩ (by simp [root])
  obtain ⟨secondFound, secondCarried, secondStored⟩ :=
    stored ⟨"top::top::a", .embed second⟩ (by simp [root])
  rw [TypeDecl.carried_embed _ _ firstListable, Option.some.injEq] at firstCarried
  rw [TypeDecl.carried_embed _ _ secondListable, Option.some.injEq] at secondCarried
  rw [paths.1, ← firstCarried] at firstStored
  rw [paths.2, ← secondCarried] at secondStored
  exact ⟨valid, _, built, size, firstStored, secondStored⟩

/-- Two types with one path: the first is lost. -/
theorem nested_incomplete :
    let first : Format := { name := "first", order := .little }
    let second : Format := { name := "second", order := .big }
    let root : Format :=
      { name := "top", order := .little,
        types := [⟨"a", .embed first⟩, ⟨"top::a", .embed second⟩] }
    root.violation? = none ∧ ∃ module, ofFormat root = .ok module ∧
      module.nested.length < root.carriers.length ∧
      TypeDecl.carried? ⟨"a", .embed first⟩ = some first ∧
      module.nested.lookup (pathOf root "a") = some second ∧ first ≠ second := by
  intro first second root
  have firstListable : first.IsListable := ⟨by decide, by decide⟩
  have secondListable : second.IsListable := ⟨by decide, by decide⟩
  have valid : root.violation? = none := by
    refine Format.violation_of_embeds (by decide) (by decide) ?_ (by simp)
    simp only [List.forall_mem_cons]
    exact ⟨⟨by decide, first, rfl⟩, ⟨by decide, second, rfl⟩, by simp⟩
  have paths : pathOf root "a" = "a" ∧ pathOf root "top::a" = "a" := by
    change (Name.relativeTo "top" "a").getD "a" = "a" ∧
      (Name.relativeTo "top" "top::a").getD "top::a" = "a"
    decide
  have built : ofFormat root = .ok { root, nested := [("a", second)] } := by
    refine ofFormat_eq_ok.mpr ⟨rfl, ?_⟩
    rw [addScopes_embed _ _ _ firstListable, addScopes_embed _ _ _ secondListable, paths.1, paths.2]
    rfl
  refine ⟨valid, _, built, ?_, TypeDecl.carried_embed _ _ firstListable, ?_, by decide⟩
  · simp [Format.carriers, root, TypeDecl.carries_embed]
  · rw [paths.1]
    rfl

end Module

end FormatCompiler
