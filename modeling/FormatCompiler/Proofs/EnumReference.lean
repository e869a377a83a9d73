import FormatCompiler.Proofs.ScopePath
import FormatCompiler.Proofs.ScopeTable

/-!
Enums found and enums meant. The rules accept a reference to an enum if it is a declared name, or
the end of one behind a separator; the lookup takes the first enum whose last name is that of the
reference. The two agree unless an enum of that last name stands before the ones that are meant, or
the reference begins with a colon that a longer name takes for a part of its separator.
-/

namespace FormatCompiler

set_option autoImplicit false

namespace Name

/-- A name of one segment that begins with a colon. -/
def IsColonLed (name : String) : Prop :=
  name.toList.head? = some ':' ∧ ¬ [':', ':'] <:+: name.toList

variable {declared reference : String}

theorem short_of_uncut {name : String} (uncut : cutLast name.toList = none) :
    short name = name := by
  rw [short, uncut]

theorem short_of_isColonLed (led : IsColonLed reference) : short reference = reference :=
  short_of_uncut (cutLast_eq_none_iff.mpr led.2)

/-- What a reference names has its last name, unless the reference begins with a colon that becomes
a part of the separator before it. -/
theorem short_eq_of_isNamedBy (named : IsNamedBy declared reference)
    (whole : ¬ IsColonLed reference) : short declared = short reference := by
  rcases named with rfl | ⟨front, shape⟩
  · rfl
  · cases found : cutLast reference.toList with
    | some parts =>
      obtain ⟨outer, last⟩ := parts
      have deeper := cutLast_append (front ++ [':', ':']) found
      rw [List.append_assoc, List.cons_append, List.cons_append, List.nil_append, shape] at deeper
      rw [short_of_cutLast deeper, short_of_cutLast found]
    | none =>
      have plain : reference.toList.head? ≠ some ':' :=
        fun led => whole ⟨led, cutLast_eq_none_iff.mp found⟩
      have second := cutLast_cons_none (c := ':') found
      rw [if_neg fun both => plain both.2] at second
      have first := cutLast_cons_none (c := ':') second
      rw [if_pos ⟨rfl, rfl⟩] at first
      have cut := cutLast_append front first
      rw [shape] at cut
      rw [short_of_cutLast cut, short_of_uncut found, List.tail_cons, String.ofList_toList]

/-- A last name that begins with a colon is the whole name. -/
theorem eq_of_short_colonLed (led : IsColonLed reference)
    (same : short declared = short reference) : declared = reference := by
  rw [short_of_isColonLed led] at same
  cases found : cutLast declared.toList with
  | none => rwa [short_of_uncut found] at same
  | some parts =>
    obtain ⟨outer, last⟩ := parts
    rw [short_of_cutLast found] at same
    refine absurd ?_ (head_of_cutLast found)
    rw [← String.toList_ofList (l := last), same]
    exact led.1

end Name

namespace Module

variable {root : Format} {module : Module} {reference : String}

theorem enumOwner_root (module : Module) (reference : String) :
    module.enumOwner? "" reference =
      (module.root.enums.find? fun decl => Name.short decl.name == Name.short reference).map
        fun decl => ("", decl) := by
  have top : module.format? "" = some module.root := rfl
  rw [enumOwner?, Name.outward_root, List.findSome?_singleton, top, Option.map_eq_bind]
  rfl

/-- The lookup from the root: the first enum with the last name of the reference. -/
theorem enumOwner_root_eq_some_iff {path : String} {decl : EnumDecl} :
    module.enumOwner? "" reference = some (path, decl) ↔
      path = "" ∧ Name.short decl.name = Name.short reference ∧
        ∃ front back, module.root.enums = front ++ decl :: back ∧
          ∀ earlier ∈ front, Name.short earlier.name ≠ Name.short reference := by
  rw [enumOwner_root, Option.map_eq_some_iff]
  simp only [List.find?_eq_some_iff_append, Prod.mk.injEq, beq_iff_eq, Bool.not_eq_true',
    beq_eq_false_iff_ne]
  constructor
  · rintro ⟨_, found, rfl, rfl⟩
    exact ⟨rfl, found⟩
  · rintro ⟨rfl, found⟩
    exact ⟨decl, found, rfl, rfl⟩

theorem enumOwner_root_eq_none_iff :
    module.enumOwner? "" reference = none ↔
      ∀ decl ∈ module.root.enums, Name.short decl.name ≠ Name.short reference := by
  rw [enumOwner_root, Option.map_eq_none_iff, List.find?_eq_none]
  simp

/-- A reference that names some enum is not found only if it begins with a colon and is no declared
name itself. -/
theorem enumOwner_lost_iff
    (meant : ∃ decl ∈ module.root.enums, IsNamedBy decl.name reference) :
    module.enumOwner? "" reference = none ↔
      Name.IsColonLed reference ∧ ∀ decl ∈ module.root.enums, decl.name ≠ reference := by
  rw [enumOwner_root_eq_none_iff]
  constructor
  · intro lost
    refine ⟨?_, fun decl member same => lost decl member (congrArg Name.short same)⟩
    obtain ⟨decl, member, named⟩ := meant
    exact not_not.mp fun whole => lost decl member (Name.short_eq_of_isNamedBy named whole)
  · rintro ⟨led, undeclared⟩ decl member same
    exact undeclared decl member (Name.eq_of_short_colonLed led same)

/-- The enum that is found is one that is meant exactly when one is found, and every other enum with
the last name of the reference stands behind one that is meant. -/
theorem enumOwner_meant_iff :
    (∃ decl ∈ module.root.enums, module.enumOwner? "" reference = some ("", decl) ∧
        IsNamedBy decl.name reference) ↔
      module.enumOwner? "" reference ≠ none ∧
        ∀ front rival back, module.root.enums = front ++ rival :: back →
          Name.short rival.name = Name.short reference →
          IsNamedBy rival.name reference ∨ ∃ earlier ∈ front, IsNamedBy earlier.name reference := by
  constructor
  · rintro ⟨decl, -, found, named⟩
    refine ⟨by simp [found], ?_⟩
    obtain ⟨-, -, before, after, shape, first⟩ := enumOwner_root_eq_some_iff.mp found
    intro front rival back parted same
    -- the first enum with the last name is not behind the rival
    rw [shape, List.append_eq_append_iff] at parted
    rcases parted with ⟨between, rfl, rest⟩ | ⟨between, rfl, rest⟩
    · cases between with
      | nil =>
        cases rest
        exact Or.inl named
      | cons other between =>
        cases rest
        exact Or.inr ⟨decl, by simp, named⟩
    · cases between with
      | nil =>
        cases rest
        exact Or.inl named
      | cons other between =>
        cases rest
        exact absurd same (first rival (by simp))
  · rintro ⟨present, ahead⟩
    obtain ⟨⟨path, decl⟩, found⟩ := Option.ne_none_iff_exists'.mp present
    obtain ⟨rfl, same, front, back, shape, first⟩ := enumOwner_root_eq_some_iff.mp found
    have listed : decl ∈ module.root.enums := by simp [shape]
    refine ⟨decl, listed, found, ?_⟩
    rcases ahead front decl back shape same with named | ⟨earlier, before, named⟩
    · exact named
    · -- an earlier one that is meant has another last name, so only the name itself is found
      have led : Name.IsColonLed reference := not_not.mp fun whole =>
        first earlier before (Name.short_eq_of_isNamedBy named whole)
      exact Or.inl (Name.eq_of_short_colonLed led same)

/-- What a reference of a field to an enum leads to. Nothing is found exactly if the reference is
one segment that begins with a colon, and no declared name. What is found is an enum that the
reference names exactly if this is not so, and no other enum with its last name stands before all
that it names. -/
theorem enumOwner_agrees_iff (valid : root.violation? = none) (built : ofFormat root = .ok module)
    {field : Field} (member : field ∈ root.fields) (refers : field.enumName = some reference) :
    (module.enumOwner? "" reference = none ↔
      Name.IsColonLed reference ∧ ∀ decl ∈ root.enums, decl.name ≠ reference) ∧
    ((∃ decl ∈ root.enums, module.enumOwner? "" reference = some ("", decl) ∧
        IsNamedBy decl.name reference) ↔
      ¬ (Name.IsColonLed reference ∧ ∀ decl ∈ root.enums, decl.name ≠ reference) ∧
        ∀ front rival back, root.enums = front ++ rival :: back →
          Name.short rival.name = Name.short reference →
          IsNamedBy rival.name reference ∨
            ∃ earlier ∈ front, IsNamedBy earlier.name reference) := by
  obtain ⟨rfl, -⟩ := ofFormat_eq_ok.mp built
  have meant := ((Format.fields_of_valid valid field member).enumerated reference refers).2
  have lost := enumOwner_lost_iff meant
  exact ⟨lost, enumOwner_meant_iff.trans (and_congr_left' (not_congr lost))⟩

/-- A reference below qualification, with an enum of the same last name behind the one it names. -/
theorem enumOwner_agrees_iff_qualified :
    let root : Format :=
      { name := "top", order := .little,
        fields := [{ id := "x", type := .primitive .u1, enumName := some "b::kind" }],
        enums :=
          [⟨"b::color", [⟨0, "red"⟩]⟩, ⟨"c::b::kind", [⟨1, "one"⟩]⟩, ⟨"kind", [⟨2, "two"⟩]⟩] }
    root.violation? = none ∧ ∃ module, ofFormat root = .ok module ∧
      ∃ decl ∈ root.enums, module.enumOwner? "" "b::kind" = some ("", decl) ∧
        IsNamedBy decl.name "b::kind" := by
  intro root
  have valid : root.violation? = none := by decide
  have built : ofFormat root = .ok { root, nested := [] } := rfl
  have agrees := (enumOwner_agrees_iff valid built (List.mem_singleton_self _) rfl).2
  refine ⟨valid, _, built, agrees.mpr ⟨?_, ?_⟩⟩
  · rintro ⟨⟨led, -⟩, -⟩
    exact absurd led (by decide)
  · have named : IsNamedBy "c::b::kind" "b::kind" := (Name.refersTo_iff _ _).mp (by decide)
    intro front rival back shape same
    rcases front with _ | ⟨first, _ | ⟨second, others⟩⟩
    · cases shape
      exact absurd same (by decide)
    · cases shape
      exact Or.inl named
    · obtain ⟨rfl, -⟩ := List.cons.inj (List.cons.inj shape).2
      exact Or.inr ⟨_, List.mem_cons_of_mem _ List.mem_cons_self, named⟩

/-- The enum that is found is another one than the reference names; and a reference that names an
enum is not found. -/
theorem enumOwner_disagrees :
    let root : Format :=
      { name := "top", order := .little,
        fields :=
          [{ id := "x", type := .primitive .u1, enumName := some "b::kind" },
            { id := "y", type := .primitive .u1, enumName := some ":b" }],
        enums := [⟨"a::kind", [⟨0, "zero"⟩]⟩, ⟨"b::kind", [⟨1, "one"⟩]⟩, ⟨"x:::b", [⟨2, "two"⟩]⟩] }
    root.violation? = none ∧ ∃ module, ofFormat root = .ok module ∧
      module.enumOwner? "" "b::kind" = some ("", ⟨"a::kind", [⟨0, "zero"⟩]⟩) ∧
      ¬ IsNamedBy "a::kind" "b::kind" ∧
      module.enumOwner? "" ":b" = none ∧ IsNamedBy "x:::b" ":b" := by
  intro root
  refine ⟨by decide, { root, nested := [] }, rfl, ?_, ?_, ?_, ?_⟩
  · rw [enumOwner_root]
    decide
  · rw [← Name.refersTo_iff]
    decide
  · rw [enumOwner_root]
    decide
  · rw [← Name.refersTo_iff]
    decide

end Module

end FormatCompiler
