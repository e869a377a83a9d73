import FormatCompiler.Proofs.ImportMerge

/-!
When a listing is loaded. Finding what it needs, merging and checking succeed under conditions that
speak about the files it reaches, and not about the way to them.
-/

namespace FormatCompiler.Imports

set_option autoImplicit false

open Relation (ReflTransGen TransGen)

variable {disk : Disk} {roots : List String} {place : Place} {files : Closure}

/-- All files that one reaches can be loaded, and none of them reaches itself again. -/
def Sound (disk : Disk) (roots : List String) (place : Place) : Prop :=
  ∀ file, ReflTransGen (ImportsFrom disk roots) place file →
    Loadable disk roots file ∧ ¬ TransGen (ImportsFrom disk roots) file file

theorem sound_of_closure (found : closure disk roots place = .ok files) :
    Sound disk roots place := by
  intro file reached
  obtain ⟨ordered, loaded⟩ := closure_ordered found
  have member := (loaded file).mpr reached
  obtain ⟨entry, inside, rfl⟩ := List.mem_map.mp member
  exact ⟨(ordered.resolves_of_mem inside).loadable, ordered.acyclic member⟩

theorem closure_of_sound (sound : Sound disk roots place) :
    ∃ files, closure disk roots place = .ok files := by
  cases found : closure disk roots place with
  | ok files => exact ⟨files, rfl⟩
  | error fault => exact absurd sound (closure_obstacle found).not_sound

/-- A format with the types and enums of others behind its own. -/
def extended (root : Format) (formats : List Format) : Format :=
  { root with
    types := root.types ++ formats.flatMap Format.types
    enums := root.enums ++ formats.flatMap Format.enums }

theorem merge_eq_ok_iff (found : closure disk roots place = .ok files) {whole : Format} :
    files.merge = .ok whole ↔
      Fresh (symbols files.root.format) ((files.needed.map LoadedFile.format).flatMap symbols) ∧
        whole = extended files.root.format (files.needed.map LoadedFile.format) := by
  constructor
  · exact merge_ok found
  · intro both
    cases result : files.merge with
    | ok other => rw [(merge_ok found result).2, both.2, extended]
    | error fault =>
      obtain ⟨kind, name, -, clash⟩ := merge_error found result
      exact absurd clash both.1.not_firstClash

/-- A listing is loaded when it is there, all it needs is, and what these are merged to keeps the
rules. -/
theorem load_eq_ok_iff {disk : Disk} {roots : List String} {path : String} {whole : Format} :
    load disk roots path = .ok whole ↔ ∃ place files, disk.locate path = .ok place ∧
      closure disk roots place = .ok files ∧ files.merge = .ok whole ∧
      whole.violation? = none := by
  have rules : ∀ merged, checked merged = .ok whole ↔ merged = whole ∧ whole.violation? = none := by
    intro merged
    unfold checked
    split
    · next kept =>
      constructor
      · intro same
        cases same
        exact ⟨rfl, kept⟩
      · intro both
        rw [both.1]
    · next violation broken =>
      apply iff_of_false
      · intro same
        cases same
      · intro both
        rw [both.1, both.2] at broken
        cases broken
  unfold load
  simp only [Except.bind_eq_ok_iff, Except.mapError_eq_ok_iff, rules]
  constructor
  · intro loaded
    obtain ⟨place, located, files, found, merged, done, rfl, kept⟩ := loaded
    exact ⟨place, files, located, found, done, kept⟩
  · intro parts
    obtain ⟨place, files, located, found, done, kept⟩ := parts
    exact ⟨place, located, files, found, whole, done, rfl, kept⟩

/-- What is merged is what is checked in the end. -/
theorem load_of_merge {path : String} {whole : Format} (located : disk.locate path = .ok place)
    (found : closure disk roots place = .ok files) (merged : files.merge = .ok whole) :
    load disk roots path = checked whole := by
  rw [load, located]
  change closure disk roots place >>= _ = _
  rw [found]
  change files.merge >>= _ = _
  rw [merged]
  rfl

/-- A file that imports nothing is loaded as it is. -/
theorem load_alone {path : String} {format : Format} (located : disk.locate path = .ok place)
    (read : readAt disk place = .ok format) (alone : format.imports = [])
    (valid : format.violation? = none) : load disk roots path = .ok format := by
  have found : closure disk roots place = .ok ⟨⟨place, format, []⟩, []⟩ := by
    simp [closure, read, visitAll, alone, bind, Except.bind, pure, Except.pure]
  have merged : Closure.merge ⟨⟨place, format, []⟩, []⟩ = .ok format :=
    (merge_eq_ok_iff found).mpr ⟨⟨List.nodup_nil, List.disjoint_nil_left _⟩, by simp [extended]⟩
  exact load_eq_ok_iff.mpr ⟨_, _, located, found, merged, valid⟩

section Needed

theorem readAt_of_needed (found : closure disk roots place = .ok files) {file : LoadedFile}
    (member : file ∈ files.needed ++ [files.root]) : readAt disk file.place = .ok file.format :=
  ((closure_ordered found).1.resolves_of_mem member).read

theorem readAt_root (found : closure disk roots place = .ok files) :
    readAt disk place = .ok files.root.format := by
  have read := readAt_of_needed found (List.mem_append_right _ (List.mem_singleton_self _))
  rwa [closure_root found] at read

theorem nodup_needed (found : closure disk roots place = .ok files) :
    (places files.needed).Nodup := by
  have distinct := (closure_ordered found).1.nodup
  rw [places_append] at distinct
  exact (List.nodup_append.mp distinct).1

/-- A part of the format at a place, if there is one. -/
def partAt {α : Type} (disk : Disk) (part : Format → List α) (place : Place) : List α :=
  match readAt disk place with
  | .ok format => part format
  | .error _ => []

theorem flatMap_needed {α : Type} (found : closure disk roots place = .ok files)
    (part : Format → List α) :
    (files.needed.map LoadedFile.format).flatMap part =
      (places files.needed).flatMap (partAt disk part) := by
  unfold places
  rw [List.flatMap_map, List.flatMap_map]
  apply List.flatMap_congr
  intro file member
  rw [partAt, readAt_of_needed found (List.mem_append_left _ member)]

end Needed

end FormatCompiler.Imports
