import FormatCompiler.Proofs.FormatExtension
import FormatCompiler.Proofs.ImportLoading
import FormatCompiler.Proofs.ImportRows
import FormatCompiler.Proofs.Utf8

/-!
Disks that differ in the order of imports only. The same files are at the same places, and each file
imports the same others. So the same listings can be loaded. What is loaded may have its imports,
types and enums in another order, but they are the same ones.
-/

namespace FormatCompiler

set_option autoImplicit false

/-- Two entries that are the same but for the order of the import rows of a listing. -/
inductive Entry.Reordered : Entry → Entry → Prop where
  | same (entry : Entry) : Reordered entry entry
  | rows {bytes others : List UInt8} {text other : List Char}
      (decoded : Text.Utf8.decode bytes = .ok text) (also : Text.Utf8.decode others = .ok other)
      (rows : Listing.Reordered (Text.lines text) (Text.lines other)) :
      Reordered (.file bytes) (.file others)

/-- Two disks whose files are the same but for the order of import rows. -/
structure Disk.Reordered (first second : Disk) : Prop where
  here : first.here = second.here
  entries : ∀ place, Option.Rel Entry.Reordered (first.entry? place) (second.entry? place)

theorem Entry.Reordered.symm {first second : Entry} (same : first.Reordered second) :
    second.Reordered first := by
  cases same with
  | same => exact .same first
  | rows decoded also moved => exact .rows also decoded moved.symm

namespace Disk.Reordered

variable {first second : Disk}

theorem symm (same : first.Reordered second) : second.Reordered first := by
  refine ⟨same.here.symm, fun place => ?_⟩
  have entries := same.entries place
  generalize first.entry? place = entry at entries ⊢
  generalize second.entry? place = other at entries ⊢
  cases entries with
  | none => exact .none
  | some moved => exact .some moved.symm

/-- At a place there is nothing on both disks, a directory on both, or a file on both. -/
theorem entry_cases (same : first.Reordered second) (place : Place) :
    (first.entry? place = none ∧ second.entry? place = none) ∨
    (first.entry? place = some .directory ∧ second.entry? place = some .directory) ∨
    ∃ bytes others, first.entry? place = some (.file bytes) ∧
      second.entry? place = some (.file others) ∧ Entry.Reordered (.file bytes) (.file others) := by
  have entries := same.entries place
  generalize first.entry? place = entry at entries ⊢
  generalize second.entry? place = other at entries ⊢
  cases entries with
  | none => exact .inl ⟨rfl, rfl⟩
  | @some entry other moved =>
    cases entry with
    | directory =>
      cases moved
      exact .inr (.inl ⟨rfl, rfl⟩)
    | file bytes =>
      cases other with
      | directory => cases moved
      | file others => exact .inr (.inr ⟨bytes, others, rfl, rfl, moved⟩)

theorem isSome_eq (same : first.Reordered second) (place : Place) :
    (first.entry? place).isSome = (second.entry? place).isSome := by
  rcases same.entry_cases place with ⟨left, right⟩ | ⟨left, right⟩ | ⟨_, _, left, right, -⟩ <;>
    simp only [left, right, Option.isSome]

theorem step_eq (same : first.Reordered second) (place : Place) (piece : String) :
    first.step place piece = second.step place piece := by
  unfold Disk.step
  rw [same.isSome_eq (place ++ [piece])]
  rcases same.entry_cases place with ⟨left, right⟩ | ⟨left, right⟩ | ⟨_, _, left, right, -⟩ <;>
    simp only [left, right]

theorem follow_eq (same : first.Reordered second) (place : Place) (pieces : List String) :
    first.follow place pieces = second.follow place pieces := by
  induction pieces generalizing place with
  | nil => rfl
  | cons piece pieces ih =>
    simp only [Disk.follow, same.step_eq, ih]

theorem locate_eq (same : first.Reordered second) (path : String) :
    first.locate path = second.locate path := by
  unfold Disk.locate Disk.origin
  rw [same.here, same.follow_eq]

theorem isFile_eq (same : first.Reordered second) (path : String) :
    first.isFile path = second.isFile path := by
  unfold Disk.isFile
  rw [same.locate_eq]
  cases second.locate path with
  | error fault => rfl
  | ok place =>
    rcases same.entry_cases place with ⟨left, right⟩ | ⟨left, right⟩ | ⟨_, _, left, right, -⟩ <;>
      simp only [left, right]

theorem resolve_eq (same : first.Reordered second) (roots : List String) (importing name : String) :
    Imports.resolve first roots importing name = Imports.resolve second roots importing name := by
  have files : Imports.fileAt? first = Imports.fileAt? second := by
    funext path
    simp only [Imports.fileAt?, same.isFile_eq, same.locate_eq]
  rw [Imports.resolve, Imports.resolve, files]

/-- A listing that can be read on one disk can be read on the other. -/
theorem readAt_of_ok (same : first.Reordered second) {place : Place} {format : Format}
    (read : Imports.readAt first place = .ok format) :
    ∃ names, format.imports.Perm names ∧
      Imports.readAt second place = .ok { format with imports := names } := by
  unfold Imports.readAt Imports.parse Disk.readAt at read ⊢
  simp only [Except.bind_eq_ok_iff, Except.mapError_eq_ok_iff] at read ⊢
  rcases same.entry_cases place with ⟨left, right⟩ | ⟨left, right⟩ | ⟨_, _, left, right, moved⟩
  · rw [left] at read
    obtain ⟨text, missing, -⟩ := read
    cases missing
  · rw [left] at read
    obtain ⟨text, missing, -⟩ := read
    cases missing
  · rw [left] at read
    rw [right]
    simp only [Except.mapError_eq_ok_iff] at read ⊢
    obtain ⟨text, decoded, found⟩ := read
    cases moved with
    | same => exact ⟨format.imports, .refl _, text, decoded, found⟩
    | rows decodedFirst decodedSecond rows =>
      cases decodedFirst.symm.trans decoded
      obtain ⟨names, perm, foundAlso⟩ := Listing.read_of_reordered rows found
      exact ⟨names, perm, _, decodedSecond, foundAlso⟩

/-- Disks on which one file is replaced by another. -/
theorem cons {here place : Place} {entry other : Entry} (moved : entry.Reordered other)
    (entries : List (Place × Entry)) :
    Disk.Reordered { here, entries := (place, entry) :: entries }
      { here, entries := (place, other) :: entries } := by
  refine ⟨rfl, fun file => ?_⟩
  have unmoved : ∀ entry? : Option Entry, Option.Rel Entry.Reordered entry? entry? := by
    intro entry?
    cases entry? with
    | none => exact .none
    | some entry => exact .some (.same entry)
  unfold Disk.entry?
  by_cases root : file = []
  · rw [if_pos root, if_pos root]
    exact unmoved _
  · rw [if_neg root, if_neg root, List.lookup_cons, List.lookup_cons]
    cases file == place with
    | true => exact .some moved
    | false => exact unmoved _

end Disk.Reordered

namespace Imports

open Relation (ReflTransGen TransGen)

variable {first second : Disk} {roots : List String}

section Graph

variable {file target place : Place}

theorem ImportsFrom.reordered (same : first.Reordered second)
    (edge : ImportsFrom first roots file target) : ImportsFrom second roots file target := by
  obtain ⟨format, read, name, member, resolved⟩ := edge
  obtain ⟨names, perm, readAlso⟩ := same.readAt_of_ok read
  exact ⟨_, readAlso, name, perm.subset member, same.resolve_eq roots file.path name ▸ resolved⟩

theorem importsFrom_eq (same : first.Reordered second) :
    ImportsFrom first roots = ImportsFrom second roots := by
  funext file target
  exact propext ⟨.reordered same, .reordered same.symm⟩

theorem Loadable.reordered (same : first.Reordered second) (loadable : Loadable first roots file) :
    Loadable second roots file := by
  obtain ⟨format, read, resolved⟩ := loadable
  obtain ⟨names, perm, readAlso⟩ := same.readAt_of_ok read
  refine ⟨_, readAlso, ?_⟩
  intro name member
  rw [← same.resolve_eq roots file.path name]
  exact resolved name (perm.symm.subset member)

theorem Sound.reordered (same : first.Reordered second) (sound : Sound first roots place) :
    Sound second roots place := by
  unfold Sound at sound ⊢
  rw [← importsFrom_eq same]
  intro file reached
  exact ⟨(sound file reached).1.reordered same, (sound file reached).2⟩

end Graph

section Files

variable {place : Place} {files others : Closure}

theorem partAt_eq {α : Type} (same : first.Reordered second) (part : Format → List α)
    (blind : ∀ format names, part { format with imports := names } = part format) :
    partAt first part = partAt second part := by
  funext place
  unfold partAt
  cases read : readAt first place with
  | ok format =>
    obtain ⟨names, -, readAlso⟩ := same.readAt_of_ok read
    rw [readAlso]
    exact (blind format names).symm
  | error fault =>
    cases readAlso : readAt second place with
    | error other => rfl
    | ok format =>
      obtain ⟨names, -, found⟩ := same.symm.readAt_of_ok readAlso
      cases read.symm.trans found

/-- What the needed files declare is the same on both disks, up to its order. -/
theorem perm_flatMap_needed {α : Type} (same : first.Reordered second)
    (found : closure first roots place = .ok files)
    (foundAlso : closure second roots place = .ok others) (part : Format → List α)
    (blind : ∀ format names, part { format with imports := names } = part format) :
    ((files.needed.map LoadedFile.format).flatMap part).Perm
      ((others.needed.map LoadedFile.format).flatMap part) := by
  have needed : (places files.needed).Perm (places others.needed) := by
    apply (List.perm_ext_iff_of_nodup (nodup_needed found) (nodup_needed foundAlso)).mpr
    intro file
    rw [mem_needed_iff found, mem_needed_iff foundAlso, importsFrom_eq same]
  rw [flatMap_needed found, flatMap_needed foundAlso, partAt_eq same part blind]
  exact needed.flatMap_right _

theorem Fresh.of_perm {declared new also : List (SymbolKind × String)} (perm : new.Perm also)
    (fresh : Fresh declared new) : Fresh declared also :=
  ⟨perm.nodup_iff.mp fresh.1, fun _ member => fresh.2 (perm.mem_iff.mpr member)⟩

/-- A listing that is loaded from one disk is loaded from the other, with its imports, types and
enums in some order. -/
theorem load_of_reordered (same : first.Reordered second) {path : String} {whole : Format}
    (loaded : load first roots path = .ok whole) :
    ∃ other, load second roots path = .ok other ∧ whole.Reordered other := by
  obtain ⟨place, files, located, found, merged, valid⟩ := load_eq_ok_iff.mp loaded
  obtain ⟨others, foundAlso⟩ := closure_of_sound ((sound_of_closure found).reordered same)
  obtain ⟨names, imports, readAlso⟩ := same.readAt_of_ok (readAt_root found)
  have root : others.root.format = { files.root.format with imports := names } :=
    Except.ok.inj ((readAt_root foundAlso).symm.trans readAlso)
  obtain ⟨fresh, rfl⟩ := (merge_eq_ok_iff found).mp merged
  have freshAlso := fresh.of_perm (perm_flatMap_needed same found foundAlso symbols fun _ _ => rfl)
  have types := perm_flatMap_needed same found foundAlso Format.types fun _ _ => rfl
  have enums := perm_flatMap_needed same found foundAlso Format.enums fun _ _ => rfl
  have moved : (extended files.root.format (files.needed.map LoadedFile.format)).Reordered
      (extended { files.root.format with imports := names }
        (others.needed.map LoadedFile.format)) :=
    ⟨rfl, rfl, rfl, rfl, rfl, imports, types.append_left _, enums.append_left _⟩
  refine ⟨_, load_eq_ok_iff.mpr ⟨place, others, ?_, foundAlso, ?_, moved.violation valid⟩, moved⟩
  · rw [← same.locate_eq]
    exact located
  · rw [merge_eq_ok_iff foundAlso, root]
    exact ⟨freshAlso, rfl⟩

/-- The order of imports does not decide whether a listing can be loaded. On two disks that differ
in nothing else the same listings are loaded, and what is loaded differs in the order of its
imports, types and enums only. -/
theorem load_independent_of_import_order (first second : Disk) (same : first.Reordered second)
    (roots : List String) (path : String) :
    ((∃ whole, load first roots path = .ok whole) ↔
      ∃ other, load second roots path = .ok other) ∧
    ∀ whole other, load first roots path = .ok whole → load second roots path = .ok other →
      whole.Reordered other := by
  refine ⟨⟨?_, ?_⟩, ?_⟩
  · intro ⟨whole, loaded⟩
    obtain ⟨other, loadedAlso, -⟩ := load_of_reordered same loaded
    exact ⟨other, loadedAlso⟩
  · intro ⟨other, loadedAlso⟩
    obtain ⟨whole, loaded, -⟩ := load_of_reordered same.symm loadedAlso
    exact ⟨whole, loaded⟩
  · intro whole other loaded loadedAlso
    obtain ⟨found, loadedFound, moved⟩ := load_of_reordered same loaded
    cases loadedAlso.symm.trans loadedFound
    exact moved

/-- The listing `r` imports the other two, in the order of its rows. -/
def twoImports (rows : List String) : Disk :=
  .holding [
    ("r", textOf (["KSIR1", "name r", "default_endian le", "imports 2"] ++ rows ++
      ["types 0", "attrs 0", "enums 0", "instances 0", "validations 0", "end"])),
    ("a", textOf ["KSIR1", "name a", "default_endian le", "types 1", "type x primitive u1",
      "attrs 0", "enums 0", "instances 0", "validations 0", "end"]),
    ("b", textOf ["KSIR1", "name b", "default_endian le", "types 1", "type y user x", "attrs 0",
      "enums 0", "instances 0", "validations 0", "end"])]

theorem load_independent_of_import_order_swapped :
    let first := twoImports ["import a", "import b"]
    let second := twoImports ["import b", "import a"]
    first.Reordered second ∧
      ∃ whole other, load first [] "r" = .ok whole ∧ load second [] "r" = .ok other ∧
        whole.Reordered other := by
  intro first second
  have same : first.Reordered second := by
    let lines (rows : List String) : List String :=
      ["KSIR1", "name r", "default_endian le", "imports 2"] ++ rows ++
        ["types 0", "attrs 0", "enums 0", "instances 0", "validations 0", "end"]
    have cut : ∀ rows ∈ [["import a", "import b"], ["import b", "import a"]],
        Text.lines (textOf (lines rows)) = (lines rows).map String.toList := by decide
    have opens : Listing.OpensImports "imports 2".toList 2 :=
      ⟨by decide, ["imports".toList, "2".toList], [], by decide, by decide⟩
    have swapped : ["import a".toList, "import b".toList].Perm
        ["import b".toList, "import a".toList] := .swap _ _ _
    apply Disk.Reordered.cons
    apply Entry.Reordered.rows (Text.Utf8.decode_encode _) (Text.Utf8.decode_encode _)
    rw [cut _ (by simp), cut _ (by simp)]
    exact .rows opens (by decide) swapped
  have readRoot : readAt first ["r"] =
      .ok { name := "r", order := .little, imports := ["a", "b"] } :=
    Except.toOption_eq_some_iff.mp (by decide +kernel)
  have readFirst : readAt first ["a"] =
      .ok { name := "a", order := .little, types := [⟨"x", .primitive .u1⟩] } :=
    Except.toOption_eq_some_iff.mp (by decide +kernel)
  have readSecond : readAt first ["b"] =
      .ok { name := "b", order := .little, types := [⟨"y", .named "x"⟩] } :=
    Except.toOption_eq_some_iff.mp (by decide +kernel)
  have importsFirst : resolve first [] (Place.path ["r"]) "a" = .ok ["a"] :=
    Except.toOption_eq_some_iff.mp (by decide +kernel)
  have importsSecond : resolve first [] (Place.path ["r"]) "b" = .ok ["b"] :=
    Except.toOption_eq_some_iff.mp (by decide +kernel)
  have every : first.files = [["r"], ["a"], ["b"]] := rfl
  have located : first.locate "r" = .ok ["r"] :=
    Except.toOption_eq_some_iff.mp (by decide +kernel)
  have found : closure first [] ["r"] = .ok
      ⟨⟨["r"], { name := "r", order := .little, imports := ["a", "b"] }, [["a"], ["b"]]⟩,
        [⟨["a"], { name := "a", order := .little, types := [⟨"x", .primitive .u1⟩] }, []⟩,
          ⟨["b"], { name := "b", order := .little, types := [⟨"y", .named "x"⟩] }, []⟩]⟩ := by
    simp [closure, visitAll, visit, readRoot, readFirst, readSecond, importsFirst, importsSecond,
      every, others, bind, Except.bind, pure, Except.pure]
  have valid : Format.violation?
      { name := "r", order := .little, imports := ["a", "b"],
        types := [⟨"x", .primitive .u1⟩, ⟨"y", .named "x"⟩] } = none := by decide +kernel
  have merged := (merge_eq_ok_iff found).mpr ⟨by simp [Fresh, symbols, typeSymbols, enumSymbols], rfl⟩
  have loaded : ∃ whole, load first [] "r" = .ok whole :=
    ⟨_, load_eq_ok_iff.mpr ⟨_, _, located, found, merged, valid⟩⟩
  have both := load_independent_of_import_order first second same [] "r"
  obtain ⟨whole, loadedFirst⟩ := loaded
  obtain ⟨other, loadedSecond⟩ := both.1.mp ⟨whole, loadedFirst⟩
  exact ⟨same, whole, other, loadedFirst, loadedSecond, both.2 _ _ loadedFirst loadedSecond⟩

end Files

end Imports

end FormatCompiler
