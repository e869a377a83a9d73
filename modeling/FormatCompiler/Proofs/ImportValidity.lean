import Mathlib.Data.List.Flatten
import Mathlib.Data.Prod.Basic
import FormatCompiler.Proofs.FormatExtension
import FormatCompiler.Proofs.ImportLoading

/-!
Files that keep the rules on their own, merged. Their declarations get into a format with another
name and other imports, and beside declarations that they were not checked with. So an alias can
lose what it stands for, aliases of several files can make a cycle, and a field of the root whose
type was only imported can find that its type is no text. Nothing else can go wrong.
-/

namespace FormatCompiler.Imports

set_option autoImplicit false

open Relation (ReflTransGen TransGen)

section Extension

variable {root : Format} {formats : List Format}

theorem nodup_symbols {format : Format} (valid : format.violation? = none) :
    (symbols format).Nodup := by
  obtain ⟨⟨-, types, enums, -⟩, -⟩ := (Format.violation_eq_none_iff_checks format).mp valid
  obtain ⟨-, -, distinct, apart⟩ := (Rules.typeViolation_eq_none_iff _ _).mp types
  obtain ⟨-, distinctEnums, -⟩ := (Rules.enumViolation_eq_none_iff _ _).mp enums
  have own : (typeSymbols format).Nodup :=
    List.nodup_cons.mpr ⟨List.disjoint_singleton.mp apart, distinct⟩
  apply List.Nodup.append
  · exact own.map (Prod.mk_right_injective _)
  · exact distinctEnums.map (Prod.mk_right_injective _)
  · intro symbol type enum
    obtain ⟨name, -, rfl⟩ := List.mem_map.mp type
    obtain ⟨other, -, same⟩ := List.mem_map.mp enum
    cases same

/-- Names of one kind that are declared by a format and by others are distinct. -/
theorem nodup_of_fresh (distinct : (symbols root).Nodup)
    (fresh : Fresh (symbols root) (formats.flatMap symbols)) (kind : SymbolKind)
    {own : List String} {names : Format → List String}
    (owned : (own.map (kind, ·)).Sublist (symbols root))
    (declared : ∀ format, ((names format).map (kind, ·)).Sublist (symbols format)) :
    (own ++ formats.flatMap names).Nodup := by
  have every : (symbols root ++ formats.flatMap symbols).Nodup :=
    distinct.append fresh.1 fun _ inside outside => fresh.2 outside inside
  apply List.Nodup.of_map (kind, ·)
  rw [List.map_append, List.map_flatMap]
  refine List.Nodup.sublist (owned.append ?_) every
  exact List.Sublist.flatMap_right formats fun format _ => declared format

theorem nodup_typeNames (distinct : (symbols root).Nodup)
    (fresh : Fresh (symbols root) (formats.flatMap symbols)) :
    (root.name :: (extended root formats).types.map TypeDecl.name).Nodup := by
  have shape : root.name :: (extended root formats).types.map TypeDecl.name =
      typeSymbols root ++ formats.flatMap fun format => format.types.map TypeDecl.name := by
    simp [extended, typeSymbols, List.map_flatMap]
  rw [shape]
  apply nodup_of_fresh distinct fresh .type (List.sublist_append_left _ _)
  intro format
  exact (List.sublist_append_left _ _).cons _

theorem nodup_enumNames (distinct : (symbols root).Nodup)
    (fresh : Fresh (symbols root) (formats.flatMap symbols)) :
    ((extended root formats).enums.map EnumDecl.name).Nodup := by
  have shape : (extended root formats).enums.map EnumDecl.name =
      enumSymbols root ++ formats.flatMap enumSymbols := by
    simp only [extended, List.map_append, List.map_flatMap]
    rfl
  rw [shape]
  exact nodup_of_fresh distinct fresh .enum (List.sublist_append_right _ _) fun format =>
    List.sublist_append_right _ _

/-- A format knows what it knew before, and the types that were added. -/
theorem knows_extended_iff (name : String) :
    (extended root formats).Knows name ↔
      root.Knows name ∨ ∃ decl ∈ (extended root formats).types, decl.name = name := by
  constructor
  · intro known
    rcases known with own | declared | imported
    · exact .inl (.inl own)
    · exact .inr declared
    · exact .inl (.inr (.inr imported))
  · intro known
    rcases known with (own | ⟨decl, member, named⟩ | imported) | declared
    · exact .inl own
    · exact .inr (.inl ⟨decl, List.mem_append_left _ member, named⟩)
    · exact .inr (.inr imported)
    · exact .inr (.inl declared)

/-- What can go wrong when formats that keep the rules get into one. -/
structure Compatible (root : Format) (types : List TypeDecl) : Prop where
  /-- An alias of any file stands for something that the root knows or that some file declares. -/
  known : ∀ name target, LeadsTo types name target →
    root.Knows target ∨ ∃ decl ∈ types, decl.name = target
  acyclic : ∀ name, ¬ TransGen (LeadsTo types) name name
  /-- A field of the root with an encoding is text, if its type has a meaning now. -/
  encoded : ∀ field ∈ root.fields, field.encoding.isSome →
    ∀ type, StandsFor types field.type type → type = .str

/-- A declaration of the merged format comes from a file that kept the rules. -/
theorem forall_mem_extended {α : Type} {part : Format → List α} {holds : α → Prop}
    (own : ∀ item ∈ part root, holds item)
    (each : ∀ format ∈ formats, ∀ item ∈ part format, holds item) :
    ∀ item ∈ part root ++ formats.flatMap part, holds item := by
  intro item member
  rcases List.mem_append.mp member with inside | outside
  · exact own item inside
  · obtain ⟨format, listed, inside⟩ := List.mem_flatMap.mp outside
    exact each format listed item inside

theorem extended_violation_iff (valid : root.violation? = none)
    (each : ∀ format ∈ formats, format.violation? = none)
    (fresh : Fresh (symbols root) (formats.flatMap symbols)) :
    (extended root formats).violation? = none ↔
      Compatible root (extended root formats).types := by
  have distinct := nodup_symbols valid
  simp only [Format.violation_eq_none_iff_checks] at valid each ⊢
  constructor
  · rintro ⟨-, fields, -, known, acyclic⟩
    constructor
    · intro name target leads
      exact (knows_extended_iff target).mp (known name target leads)
    · exact acyclic
    · intro field member
      exact (fields field member).encoded
  · intro compatible
    obtain ⟨⟨named, types, enums, validations⟩, fields, instances, -⟩ := valid
    obtain ⟨own, distinctTypes⟩ := List.nodup_cons.mp (nodup_typeNames distinct fresh)
    have knows : ∀ name, root.Knows name → (extended root formats).Knows name := fun name known =>
      (knows_extended_iff name).mpr (.inl known)
    simp only [Rules.typeViolation_eq_none_iff, Rules.enumViolation_eq_none_iff]
      at types enums each ⊢
    refine ⟨⟨named, ⟨?_, ?_, distinctTypes, List.disjoint_singleton.mpr own⟩,
      ⟨?_, nodup_enumNames distinct fresh, List.disjoint_nil_right _⟩, validations⟩, ?_, ?_, ?_,
      compatible.acyclic⟩
    · exact forall_mem_extended types.1 fun format listed => (each format listed).1.2.1.1
    · exact forall_mem_extended types.2.1 fun format listed => (each format listed).1.2.1.2.1
    · exact forall_mem_extended enums.1 fun format listed => (each format listed).1.2.2.1.1
    · intro field member
      exact (fields field member).extend knows (List.subset_append_left _ _)
        (List.subset_append_left _ _) (compatible.encoded field member)
    · intro inst member
      exact (instances inst member).extend knows
    · intro name target leads
      exact (knows_extended_iff target).mpr (compatible.known name target leads)

end Extension

section Files

variable {disk : Disk} {roots : List String} {place : Place} {files : Closure}

/-- Every file that one reaches keeps the rules on its own. -/
def SeparatelyValid (disk : Disk) (roots : List String) (place : Place) : Prop :=
  ∀ file format, ReflTransGen (ImportsFrom disk roots) place file →
    readAt disk file = .ok format → format.violation? = none

/-- No two of the files that one reaches declare the same symbol. -/
def Apart (disk : Disk) (roots : List String) (place : Place) : Prop :=
  ∀ file other format also, ReflTransGen (ImportsFrom disk roots) place file →
    ReflTransGen (ImportsFrom disk roots) place other → file ≠ other →
    readAt disk file = .ok format → readAt disk other = .ok also →
    (symbols format).Disjoint (symbols also)

theorem reached_of_needed (found : closure disk roots place = .ok files) {file : LoadedFile}
    (member : file ∈ files.needed ++ [files.root]) :
    ReflTransGen (ImportsFrom disk roots) place file.place :=
  ((closure_ordered found).2 file.place).mp (List.mem_map_of_mem member)

theorem needed_of_reached (found : closure disk roots place = .ok files) {file : Place}
    {format : Format} (reached : ReflTransGen (ImportsFrom disk roots) place file)
    (read : readAt disk file = .ok format) :
    ∃ loaded ∈ files.needed ++ [files.root], loaded.place = file ∧ loaded.format = format := by
  obtain ⟨loaded, member, rfl⟩ := List.mem_map.mp (((closure_ordered found).2 file).mpr reached)
  cases read.symm.trans (readAt_of_needed found member)
  exact ⟨loaded, member, rfl, rfl⟩

theorem SeparatelyValid.needed (valid : SeparatelyValid disk roots place)
    (found : closure disk roots place = .ok files) {file : LoadedFile}
    (member : file ∈ files.needed ++ [files.root]) : file.format.violation? = none :=
  valid file.place file.format (reached_of_needed found member) (readAt_of_needed found member)

theorem Apart.needed (apart : Apart disk roots place) (found : closure disk roots place = .ok files)
    {first second : LoadedFile} (left : first ∈ files.needed ++ [files.root])
    (right : second ∈ files.needed ++ [files.root]) (differ : first.place ≠ second.place) :
    (symbols first.format).Disjoint (symbols second.format) :=
  apart first.place second.place first.format second.format (reached_of_needed found left)
    (reached_of_needed found right) differ (readAt_of_needed found left)
    (readAt_of_needed found right)

theorem mem_types_iff (found : closure disk roots place = .ok files) (decl : TypeDecl) :
    decl ∈ (extended files.root.format (files.needed.map LoadedFile.format)).types ↔
      ∃ file format, ReflTransGen (ImportsFrom disk roots) place file ∧
        readAt disk file = .ok format ∧ decl ∈ format.types := by
  have listed : decl ∈ (extended files.root.format (files.needed.map LoadedFile.format)).types ↔
      ∃ loaded ∈ files.needed ++ [files.root], decl ∈ loaded.format.types := by
    simp [extended, or_comm, or_and_right, exists_or]
  rw [listed]
  constructor
  · rintro ⟨loaded, member, inside⟩
    exact ⟨loaded.place, loaded.format, reached_of_needed found member,
      readAt_of_needed found member, inside⟩
  · rintro ⟨file, format, reached, read, inside⟩
    obtain ⟨loaded, member, -, rfl⟩ := needed_of_reached found reached read
    exact ⟨loaded, member, inside⟩

/-- Files that keep the rules and do not share a symbol can be merged. -/
theorem fresh_needed (valid : SeparatelyValid disk roots place) (apart : Apart disk roots place)
    (found : closure disk roots place = .ok files) :
    Fresh (symbols files.root.format)
      ((files.needed.map LoadedFile.format).flatMap symbols) := by
  have distinct := (closure_ordered found).1.nodup
  rw [places_append, places_singleton, List.nodup_append] at distinct
  obtain ⟨distinct, -, notRoot⟩ := distinct
  rw [List.flatMap_map]
  constructor
  · apply List.nodup_flatMap.mpr
    constructor
    · intro file member
      exact nodup_symbols (valid.needed found (List.mem_append_left _ member))
    · apply (List.pairwise_map.mp distinct).imp_of_mem
      intro first second left right differ
      exact apart.needed found (List.mem_append_left _ left) (List.mem_append_left _ right) differ
  · intro symbol inside
    obtain ⟨file, member, inside⟩ := List.mem_flatMap.mp inside
    have differ := notRoot file.place (List.mem_map_of_mem member) files.root.place
      (List.mem_singleton_self _)
    exact apart.needed found (List.mem_append_left _ member)
      (List.mem_append_right _ (List.mem_singleton_self _)) differ inside

theorem separatelyValid_of_closure (found : closure disk roots place = .ok files)
    (each : ∀ file ∈ files.needed ++ [files.root], file.format.violation? = none) :
    SeparatelyValid disk roots place := by
  intro file format reached read
  obtain ⟨loaded, member, -, rfl⟩ := needed_of_reached found reached read
  exact each loaded member

theorem apart_of_closure (found : closure disk roots place = .ok files)
    (distinct : ((files.needed ++ [files.root]).flatMap fun file => symbols file.format).Nodup) :
    Apart disk roots place := by
  intro file other format also reached reachedAlso differ read readAlso
  obtain ⟨first, left, rfl, rfl⟩ := needed_of_reached found reached read
  obtain ⟨second, right, rfl, rfl⟩ := needed_of_reached found reachedAlso readAlso
  have symm :
      Std.Symm (Function.onFun List.Disjoint fun file : LoadedFile => symbols file.format) :=
    ⟨fun _ _ disjoint => List.disjoint_comm.mp disjoint⟩
  apply (List.nodup_flatMap.mp distinct).2.forall left right
  exact fun same => differ (congrArg LoadedFile.place same)

/-- Files that keep the rules on their own and share no symbol are loaded together exactly when
their types are compatible with the root. They can always be merged: where they are not loaded, what
they are merged to breaks a rule. -/
theorem load_separately_valid_iff {path : String} (located : disk.locate path = .ok place)
    (sound : Sound disk roots place) (valid : SeparatelyValid disk roots place)
    (apart : Apart disk roots place) :
    (∃ root types, readAt disk place = .ok root ∧
      (∀ decl, decl ∈ types ↔ ∃ file format, ReflTransGen (ImportsFrom disk roots) place file ∧
        readAt disk file = .ok format ∧ decl ∈ format.types) ∧
      ((∃ whole, load disk roots path = .ok whole) ↔ Compatible root types)) ∧
    ∀ fault, load disk roots path = .error fault → ∃ violation, fault = .invalid violation := by
  obtain ⟨files, found⟩ := closure_of_sound sound
  have fresh := fresh_needed valid apart found
  have root := valid.needed found (List.mem_append_right _ (List.mem_singleton_self _))
  have each : ∀ format ∈ files.needed.map LoadedFile.format, format.violation? = none := by
    intro format member
    obtain ⟨file, listed, rfl⟩ := List.mem_map.mp member
    exact valid.needed found (List.mem_append_left _ listed)
  have merged := (merge_eq_ok_iff found).mpr ⟨fresh, rfl⟩
  have loaded := load_of_merge located found merged
  refine ⟨⟨_, _, readAt_root found, mem_types_iff found, ?_⟩, ?_⟩
  · rw [← extended_violation_iff root each fresh, loaded, checked]
    split
    · next kept => exact iff_of_true ⟨_, rfl⟩ kept
    · next violation broken =>
      apply iff_of_false
      · rintro ⟨whole, ⟨⟩⟩
      · simp [broken]
  · intro fault failed
    rw [loaded, checked] at failed
    split at failed
    · cases failed
    · next violation broken =>
      cases failed
      exact ⟨violation, rfl⟩

/-- The listing `m` has an alias of what its import of `l` provides; `r` imports what is given. -/
def aliasOfImport (names : List String) : Disk :=
  .holding [
    ("r", textOf (["KSIR1", "name top", "default_endian le",
      "imports " ++ Text.showNat names.length] ++ names.map ("import " ++ ·) ++
      ["types 0", "attrs 0", "enums 0", "instances 0", "validations 0", "end"])),
    ("m", textOf ["KSIR1", "name middle", "default_endian le", "imports 1", "import l", "types 1",
      "type x user l", "attrs 0", "enums 0", "instances 0", "validations 0", "end"]),
    ("l", textOf ["KSIR1", "name leaf", "default_endian le", "types 1", "type y primitive u1",
      "attrs 0", "enums 0", "instances 0", "validations 0", "end"])]

/-! What the three listings say. -/

def importingTop (imports : List String) : Format :=
  { name := "top", order := .little, imports }

def aliasingMiddle : Format :=
  { name := "middle", order := .little, imports := ["l"], types := [⟨"x", .named "l"⟩] }

def plainLeaf : Format :=
  { name := "leaf", order := .little, types := [⟨"y", .primitive .u1⟩] }

/-- What the root needs, whether it imports `l` itself or not. -/
def aliasClosure (names : List String) : Closure :=
  ⟨⟨["r"], importingTop names, names.map ([·])⟩,
    [⟨["l"], plainLeaf, []⟩, ⟨["m"], aliasingMiddle, [["l"]]⟩]⟩

theorem locate_aliasOfImport (names : List String) :
    (aliasOfImport names).locate "r" = .ok ["r"] := rfl

theorem closure_aliasOfImport {names : List String} (given : names ∈ [["m", "l"], ["m"]]) :
    closure (aliasOfImport names) [] ["r"] = .ok (aliasClosure names) := by
  have listings : ∀ names ∈ [["m", "l"], ["m"]],
      (readAt (aliasOfImport names) ["r"]).toOption = some (importingTop names) ∧
      (readAt (aliasOfImport names) ["m"]).toOption = some aliasingMiddle ∧
      (readAt (aliasOfImport names) ["l"]).toOption = some plainLeaf := by decide +kernel
  have resolved : ∀ names ∈ [["m", "l"], ["m"]],
      (resolve (aliasOfImport names) [] (Place.path ["r"]) "m").toOption = some ["m"] ∧
      (resolve (aliasOfImport names) [] (Place.path ["r"]) "l").toOption = some ["l"] ∧
      (resolve (aliasOfImport names) [] (Place.path ["m"]) "l").toOption = some ["l"] := by
    decide +kernel
  obtain ⟨top, middle, leaf⟩ := listings names given
  obtain ⟨toMiddle, toLeaf, further⟩ := resolved names given
  rw [Except.toOption_eq_some_iff] at top middle leaf toMiddle toLeaf further
  have every : (aliasOfImport names).files = [["r"], ["m"], ["l"]] := rfl
  simp only [List.mem_cons, List.not_mem_nil, or_false] at given
  rcases given with rfl | rfl <;>
    simp [closure, visitAll, visit, top, middle, leaf, toMiddle, toLeaf, further, every, others,
      aliasClosure, importingTop, aliasingMiddle, plainLeaf, bind, Except.bind, pure, Except.pure]

section Shared

variable {names : List String} (given : names ∈ [["m", "l"], ["m"]])
include given

theorem separatelyValid_aliasOfImport : SeparatelyValid (aliasOfImport names) [] ["r"] := by
  have each : ∀ names ∈ [["m", "l"], ["m"]],
      ∀ file ∈ (aliasClosure names).needed ++ [(aliasClosure names).root],
        file.format.violation? = none := by decide +kernel
  exact separatelyValid_of_closure (closure_aliasOfImport given) (each names given)

theorem apart_aliasOfImport : Apart (aliasOfImport names) [] ["r"] :=
  apart_of_closure (closure_aliasOfImport given)
    (by decide : ((aliasClosure []).needed ++ [(aliasClosure []).root] |>.flatMap
      fun file => symbols file.format).Nodup)

theorem load_aliasOfImport : load (aliasOfImport names) [] "r" =
    checked (extended (importingTop names) [plainLeaf, aliasingMiddle]) := by
  have found := closure_aliasOfImport given
  have fresh := fresh_needed (separatelyValid_aliasOfImport given) (apart_aliasOfImport given) found
  exact load_of_merge (locate_aliasOfImport names) found
    ((merge_eq_ok_iff found).mpr ⟨fresh, rfl⟩)

end Shared

/-- The root imports `l` as well, so that the alias has something to stand for. -/
theorem load_separately_valid_iff_shared :
    let disk := aliasOfImport ["m", "l"]
    disk.locate "r" = .ok ["r"] ∧ Sound disk [] ["r"] ∧ SeparatelyValid disk [] ["r"] ∧
      Apart disk [] ["r"] ∧ (∃ whole, load disk [] "r" = .ok whole) ∧
      ∃ root types, readAt disk ["r"] = .ok root ∧
        (∀ decl, decl ∈ types ↔ ∃ file format, ReflTransGen (ImportsFrom disk []) ["r"] file ∧
          readAt disk file = .ok format ∧ decl ∈ format.types) ∧ Compatible root types := by
  intro disk
  have given : ["m", "l"] ∈ [["m", "l"], ["m"]] := List.mem_cons_self
  have located := locate_aliasOfImport ["m", "l"]
  have sound := sound_of_closure (closure_aliasOfImport given)
  have valid := separatelyValid_aliasOfImport given
  have apart := apart_aliasOfImport given
  have kept :
      (extended (importingTop ["m", "l"]) [plainLeaf, aliasingMiddle]).violation? = none := by
    decide +kernel
  have loaded : ∃ whole, load disk [] "r" = .ok whole :=
    ⟨extended (importingTop ["m", "l"]) [plainLeaf, aliasingMiddle],
      (load_aliasOfImport given).trans (by rw [checked, kept])⟩
  obtain ⟨⟨root, types, read, declared, iff⟩, -⟩ :=
    load_separately_valid_iff located sound valid apart
  exact ⟨located, sound, valid, apart, loaded, root, types, read, declared, iff.mp loaded⟩

/-- The root imports `m` only, and does not know what the alias stands for. -/
theorem separately_valid_unloaded :
    let disk := aliasOfImport ["m"]
    disk.locate "r" = .ok ["r"] ∧ Sound disk [] ["r"] ∧ SeparatelyValid disk [] ["r"] ∧
      Apart disk [] ["r"] ∧ load disk [] "r" = .error (.invalid (.unknownAliasTarget "x" "l")) := by
  intro disk
  have given : ["m"] ∈ [["m", "l"], ["m"]] := List.mem_cons_of_mem _ List.mem_cons_self
  have broken : (extended (importingTop ["m"]) [plainLeaf, aliasingMiddle]).violation? =
      some (.unknownAliasTarget "x" "l") := by
    decide +kernel
  refine ⟨locate_aliasOfImport ["m"], sound_of_closure (closure_aliasOfImport given),
    separatelyValid_aliasOfImport given, apart_aliasOfImport given, ?_⟩
  rw [load_aliasOfImport given, checked, broken]

end Files

end FormatCompiler.Imports
