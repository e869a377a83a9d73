import Mathlib.Data.List.Nodup
import FormatCompiler.Proofs.AliasWalk

/-!
Aliases as they are declared. Where no name is declared twice an alias is found wherever it stands,
so the table of aliases finds a primitive exactly when the declarations lead to one.
-/

namespace FormatCompiler

set_option autoImplicit false

/-- A type is read as a primitive: it is one, or it is declared to stand for a type that is. -/
inductive StandsFor (types : List TypeDecl) : TypeRef → Primitive → Prop
  | primitive (type : Primitive) : StandsFor types (.primitive type) type
  | declared {decl : TypeDecl} {type : Primitive} (member : decl ∈ types)
      (bare : decl.type.payload? = none) (next : StandsFor types decl.type type) :
      StandsFor types (.named decl.name) type

/-- A name is declared to stand for another name, and not to carry a format. -/
def LeadsTo (types : List TypeDecl) (name target : String) : Prop :=
  ∃ decl ∈ types, decl.name = name ∧ decl.type = .named target ∧ decl.type.payload? = none

variable {types : List TypeDecl} {name next : String} {ref : TypeRef} {type : Primitive}

theorem decl_unique (distinct : (types.map TypeDecl.name).Nodup) {first second : TypeDecl}
    (left : first ∈ types) (right : second ∈ types) (same : first.name = second.name) :
    first = second :=
  List.inj_on_of_nodup_map distinct left right same

namespace AliasTable

theorem leadsTo_of_leads (leads : (ofTypes types).Leads name next) : LeadsTo types name next :=
  exists_decl_of_target leads

/-- Among distinct names an alias is found wherever it is declared. -/
theorem target_eq_some_iff (distinct : (types.map TypeDecl.name).Nodup) :
    (ofTypes types).target? name = some ref ↔
      ∃ decl ∈ types, decl.name = name ∧ decl.type = ref ∧ decl.type.payload? = none := by
  refine ⟨exists_decl_of_target, ?_⟩
  rintro ⟨decl, member, named, rfl, bare⟩
  cases target : (ofTypes types).target? name with
  | none =>
    have carries := target_eq_none_iff.mp target decl member named
    rw [bare] at carries
    cases carries
  | some other =>
    obtain ⟨also, found, same, rfl, -⟩ := exists_decl_of_target target
    rw [decl_unique distinct found member (same.trans named.symm)]

theorem Finds.standsFor (finds : Finds (ofTypes types) ref type) : StandsFor types ref type := by
  induction finds with
  | primitive type => exact .primitive type
  | next target rest ih =>
    obtain ⟨decl, member, rfl, rfl, bare⟩ := exists_decl_of_target target
    exact .declared member bare ih

theorem finds_of_standsFor (distinct : (types.map TypeDecl.name).Nodup)
    (stands : StandsFor types ref type) : Finds (ofTypes types) ref type := by
  induction stands with
  | primitive type => exact .primitive type
  | @declared decl type member bare _ ih =>
    exact .next ((target_eq_some_iff distinct).mpr ⟨decl, member, rfl, rfl, bare⟩) ih

/-- The table of aliases finds the primitive that the declarations lead to, if they lead to one. -/
theorem primitive_eq_some_iff (distinct : (types.map TypeDecl.name).Nodup) (ref : TypeRef) :
    (ofTypes types).primitive? ref = some type ↔ StandsFor types ref type := by
  rw [primitive_eq_some_iff_finds]
  exact ⟨Finds.standsFor, finds_of_standsFor distinct⟩

end AliasTable

end FormatCompiler
