import FormatCompiler.Proofs.ListingRoundTrip
import FormatCompiler.Proofs.WellFormed

/-!
Formats that keep the rules, through their listings. The rules say nothing about the characters of
a string, so a format may keep them and still have a listing that cannot be read. Where the listing
can be read, what is read keeps the rules as well.
-/

namespace FormatCompiler

set_option autoImplicit false

namespace Rules

theorem caseViolation_normal (aliases : AliasTable) (hasFallback : Bool)
    (cases : List SwitchCase) :
    caseViolation? aliases hasFallback (cases.map SwitchCase.normal) =
      caseViolation? aliases hasFallback cases := by
  induction cases generalizing hasFallback with
  | nil => rfl
  | cons case cases ih =>
    simp only [List.map_cons, caseViolation?, SwitchCase.normal, Option.isNone_map, ih]

theorem switchViolation_normal (aliases : AliasTable) (field : Field) :
    switchViolation? aliases field.normal = switchViolation? aliases field := by
  simp only [switchViolation?, Field.normal, caseViolation_normal, List.isEmpty_map,
    Option.isNone_map, Option.isSome_map]

theorem repeatViolation_normal (field : Field) :
    repeatViolation? field.normal = repeatViolation? field := by
  simp only [repeatViolation?, Field.normal, Option.isNone_map, Option.isSome_map]

/-- A text that disappears in the normal form is no longer held to any rule. -/
theorem normalText_cases (text : Option String) :
    normalText text = none ∨ normalText text = text := by
  cases text with
  | none => exact Or.inl rfl
  | some text =>
    rw [normalText, Option.filter_some]
    split
    · exact Or.inr rfl
    · exact Or.inl rfl

theorem fieldEnumViolation_normal {format : Format} {type : Option Primitive} {field : Field}
    (valid : fieldEnumViolation? format type field = none) :
    fieldEnumViolation? format.normal type field.normal = none := by
  unfold fieldEnumViolation? at valid ⊢
  rcases normalText_cases field.enumName with gone | kept
  · have unnamed : field.normal.enumName = none := gone
    rw [unnamed]
  · have same : field.normal.enumName = field.enumName := kept
    rw [same]
    exact valid

theorem fieldViolation_normal {format : Format} {aliases : AliasTable} {field : Field}
    (valid : fieldViolation? format aliases field = none) :
    fieldViolation? format.normal aliases field.normal = none := by
  unfold fieldViolation? at valid ⊢
  simp only [orElse_eq_none] at valid ⊢
  obtain ⟨id, type, encoding, repetition, switch, enum⟩ := valid
  refine ⟨id, type, ?_, ?_, ?_, fieldEnumViolation_normal enum⟩
  · rw [when_eq_none] at encoding ⊢
    rcases normalText_cases field.encoding with gone | kept
    · have absent : field.normal.encoding = none := gone
      simp [absent]
    · have same : field.normal.encoding = field.encoding := kept
      rw [same]
      exact encoding
  · rw [repeatViolation_normal, repetition]
  · rw [switchViolation_normal, switch]

theorem instanceViolation_normal (format : Format) (inst : Instance) :
    instanceViolation? format.normal inst.normal = instanceViolation? format inst := by
  obtain ⟨id, body⟩ := inst
  cases body <;> rfl

end Rules

open Rules in
/-- The normal form keeps every rule that the format keeps. -/
theorem Format.violation_normal {format : Format} (valid : format.violation? = none) :
    format.normal.violation? = none := by
  unfold Format.violation? at valid ⊢
  simp only [orElse_eq_none] at valid ⊢
  obtain ⟨name, types, enums, fields, instances, validations, aliases⟩ := valid
  refine ⟨name, types, enums, ?_, ?_, ?_, aliases⟩
  · rw [List.findSome?_eq_none_iff] at fields ⊢
    intro field member
    obtain ⟨original, stored, rfl⟩ := List.mem_map.mp member
    exact fieldViolation_normal (fields original stored)
  · rw [List.findSome?_eq_none_iff] at instances ⊢
    intro inst member
    obtain ⟨original, stored, rfl⟩ := List.mem_map.mp member
    rw [instanceViolation_normal, instances original stored]
  · rw [when_eq_none] at validations ⊢
    rw [← validations]
    simp [Format.normal, List.any_map, Function.comp_def, Validation.normal]

namespace Listing

/-- A format that keeps the rules comes back from its listing as one that keeps them, with the very
same listing, exactly when none of its strings holds a line feed (and 64 bits count its lists). -/
theorem valid_round_trip_iff (format : Format) (valid : format.violation? = none) :
    (∃ found, read (write format) = .ok found ∧ found.violation? = none ∧
        write found = write format) ↔
      (∀ string ∈ format.strings, '\n' ∉ string.toList) ∧
        ∀ size ∈ format.sizes, size < UInt64.size := by
  constructor
  · rintro ⟨found, readBack, -, -⟩
    by_cases listable : format.IsListable
    · exact ⟨listable.oneLine, listable.counted⟩
    · obtain ⟨fault, failed⟩ := read_of_unlistable listable
      rw [failed] at readBack
      cases readBack
  · rintro ⟨oneLine, counted⟩
    exact ⟨format.normal, read_of_listable ⟨oneLine, counted⟩, Format.violation_normal valid,
      write_of_normal format⟩

/-- An enum may be called like the mark of an absent field: the reference to it is lost, but the
rules are kept and the listing is the same. -/
theorem valid_round_trip_none :
    ∃ found, read (write {
        name := "a \"b\\c #$"
        order := .big
        fields := [{ id := "x", type := .primitive .u1, enumName := some "none" }]
        enums := [⟨"none", [⟨-1, "\r"⟩]⟩] }) = .ok found ∧ found.violation? = none ∧
      write found = write {
        name := "a \"b\\c #$"
        order := .big
        fields := [{ id := "x", type := .primitive .u1, enumName := some "none" }]
        enums := [⟨"none", [⟨-1, "\r"⟩]⟩] } :=
  (valid_round_trip_iff _ (by decide)).mpr ⟨by decide, by decide⟩

/-- The rules accept a line feed in the name of a format, and no listing carries it. -/
theorem valid_feed_unread :
    Format.violation? { name := "a\nb", order := .little } = none ∧
      ¬ ∃ found, read (write { name := "a\nb", order := .little }) = .ok found := by
  refine ⟨by decide, ?_⟩
  rintro ⟨found, readBack⟩
  have unlistable : ¬ Format.IsListable { name := "a\nb", order := .little } := by
    intro listable
    exact absurd (listable.oneLine "a\nb" (by decide)) (by decide)
  obtain ⟨fault, failed⟩ := read_of_unlistable unlistable
  rw [failed] at readBack
  cases readBack

end Listing

end FormatCompiler
