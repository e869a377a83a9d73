import FormatCompiler.Proofs.CompilationFailure
import FormatCompiler.Proofs.DiskChange
import FormatCompiler.Proofs.PathDescent
import FormatCompiler.Proofs.ScopeTable

/-!
Where files are written. The path of a file is made of the name of the format and, for Python, of a
package; nobody looks at what they hold. So the files of a format stay below every output directory
exactly when that path descends.
-/

namespace FormatCompiler

set_option autoImplicit false

namespace Disk

/-- Outside a directory nothing is different, but for new directories that its path leads
through. -/
structure Confined (directory : String) (before after : Disk) : Prop where
  here : after.here = before.here
  entry : ∀ place, ¬ before.place directory <+: place →
    after.entry? place = before.entry? place ∨
      before.LeadsThrough directory place ∧ before.entry? place = none ∧
        after.entry? place = some .directory

namespace Confined

variable {directory : String} {before between after : Disk}

theorem refl (disk : Disk) : Confined directory disk disk :=
  ⟨rfl, fun _ _ => .inl rfl⟩

theorem trans (first : Confined directory before between)
    (second : Confined directory between after) : Confined directory before after := by
  refine ⟨second.here.trans first.here, fun place outside => ?_⟩
  have same := place_eq first.here directory
  rcases first.entry place outside with kept | ⟨leads, missing, made⟩ <;>
    rcases second.entry place (same ▸ outside) with kept' | ⟨leads', missing', made'⟩
  · exact .inl (kept'.trans kept)
  · refine .inr ⟨?_, kept ▸ missing', made'⟩
    obtain ⟨front, first', rfl⟩ := leads'
    exact ⟨front, first', by rw [origin, first.here, origin]⟩
  · exact .inr ⟨leads, missing, kept'.trans made⟩
  · exact .inr ⟨leads, missing, made'⟩

theorem of_grows {among : Place → Prop} (grows : Grows among before after)
    (lies : ∀ place, among place →
      before.place directory <+: place ∨ before.LeadsThrough directory place) :
    Confined directory before after := by
  refine ⟨grows.here, fun place outside => ?_⟩
  refine (grows.entry place).imp_right fun ⟨listed, new⟩ => ⟨?_, new⟩
  exact (lies place listed).resolve_left outside

theorem put (disk : Disk) {place : Place} (inside : disk.place directory <+: place)
    (below : place ≠ []) (entry : Entry) : Confined directory disk (disk.put place entry) := by
  refine ⟨rfl, fun other outside => .inl ?_⟩
  rw [disk.entry_put below, if_neg]
  rintro rfl
  exact outside inside

end Confined

end Disk

section Writing

variable {artifact : Artifact} (named : ∃ front last, Path.IsNamed artifact.path front last)
  (directory : String)
include named

/-- Writing a file makes directories that its path leads through, and then the file or nothing. -/
theorem Artifact.write_cases (disk : Disk) {path : String}
    (joined : Path.join directory artifact.path = path) :
    ∃ ready, Disk.Grows (fun place => ∃ front, front <+: (Path.pieces path).dropLast ∧
        place = (disk.origin path).travel front) disk ready ∧
      ((∃ fault, artifact.write disk directory = ⟨ready, .error fault⟩) ∨
        disk.place path ≠ [] ∧
          artifact.write disk directory = ⟨ready.put (disk.place path)
            (.file (Text.Utf8.encode artifact.content.toList)), .ok path⟩) := by
  obtain ⟨front, last, named⟩ := named
  obtain ⟨front, named⟩ := joined ▸ named.join directory
  unfold Artifact.write
  simp only [joined, named.parent, Option.getD_some]
  have grown := disk.makeDirectories_grows (Path.upTo path front)
  rw [← named.ancestors] at grown
  generalize disk.makeDirectories (Path.upTo path front) = ready at grown ⊢
  refine ⟨ready.disk, grown.mono ?_, ?_⟩
  · rintro place ⟨around, member, rfl⟩
    obtain ⟨front, first, rfl⟩ := Path.exists_of_mem_ancestors member
    exact ⟨front, first, disk.place_upTo (first.trans (List.dropLast_prefix _))⟩
  · cases made : ready.result with
    | error fault => exact .inl ⟨_, rfl⟩
    | ok _ =>
      dsimp only
      cases written : ready.disk.write path (Text.Utf8.encode artifact.content.toList) with
      | error fault => exact .inl ⟨_, rfl⟩
      | ok after =>
        obtain ⟨below, rfl⟩ := Disk.write_of_named named written
        rw [Disk.place_eq grown.here] at below
        exact .inr ⟨below, by rw [Disk.place_eq grown.here]⟩

/-- What is there stays there, if not as it was. -/
theorem Artifact.write_keeps {disk : Disk} {place : Place} (there : (disk.entry? place).isSome) :
    (Disk.entry? (artifact.write disk directory).disk place).isSome := by
  obtain ⟨entry, found⟩ := Option.isSome_iff_exists.mp there
  obtain ⟨ready, grown, ⟨fault, same⟩ | ⟨below, same⟩⟩ :=
    Artifact.write_cases named directory disk rfl
  · rw [same, grown.keeps found]
    rfl
  · rw [same, ready.entry_put below]
    split
    · rfl
    · rw [grown.keeps found]
      rfl

/-- A file whose path descends is written below the directory. -/
theorem Artifact.write_confined (disk : Disk) (descends : Path.descends artifact.path = true) :
    Disk.Confined directory disk (artifact.write disk directory).disk ∧
      ∀ written, (artifact.write disk directory).result = .ok written →
        disk.place directory <+: disk.place written := by
  have way : ∀ place, (∃ front,
      front <+: (Path.pieces (Path.join directory artifact.path)).dropLast ∧
        place = (disk.origin (Path.join directory artifact.path)).travel front) →
      disk.place directory <+: place ∨ disk.LeadsThrough directory place := by
    rintro place ⟨front, first, rfl⟩
    exact disk.way_of_descends directory descends first
  have inside : disk.place directory <+: disk.place (Path.join directory artifact.path) := by
    obtain ⟨front, last, named⟩ := named
    exact disk.place_of_descends directory descends named
  obtain ⟨ready, grown, ⟨fault, same⟩ | ⟨down, same⟩⟩ :=
    Artifact.write_cases named directory disk rfl
  · rw [same]
    exact ⟨.of_grows grown way, by simp⟩
  · rw [same]
    refine ⟨(Disk.Confined.of_grows grown way).trans (.put ready ?_ down _), ?_⟩
    · rwa [Disk.place_eq grown.here]
    · rintro written ⟨⟩
      exact inside

/-- Where no file is in the way, something is where the file should be: the file, or a directory
that its own path leads through. -/
theorem Artifact.write_of_clear {disk : Disk} (clear : disk.Clear) :
    (Disk.entry? (artifact.write disk directory).disk
      (disk.place (Path.join directory artifact.path))).isSome := by
  obtain ⟨front, last, named⟩ := named
  obtain ⟨front, named⟩ := named.join directory
  obtain ⟨ready, made, cleared, opened⟩ := clear.makeDirectories named.first
  have here : ready.here = disk.here := by
    have grown := disk.makeDirectories_grows (Path.upTo (Path.join directory artifact.path) front)
    rw [made] at grown
    exact grown.here
  unfold Artifact.write
  simp only [named.parent, Option.getD_some, made]
  cases written : ready.write (Path.join directory artifact.path)
      (Text.Utf8.encode artifact.content.toList) with
  | error fault =>
    have there := cleared.isSome_of_write named opened written
    rwa [Disk.place_eq here] at there
  | ok after =>
    obtain ⟨below, rfl⟩ := Disk.write_of_named named written
    rw [Disk.place_eq here] at below ⊢
    rw [ready.entry_put below, if_pos rfl]
    rfl

end Writing

/-- All that an action has done to a disk, failed or not, is below a directory or makes the way
there, and the files that it says it has written are below it. -/
structure Outcome.StaysBelow {ε : Type} (outcome : Outcome ε (List String)) (directory : String)
    (before : Disk) : Prop where
  confined : Disk.Confined directory before outcome.disk
  written : ∀ paths, outcome.result = .ok paths →
    ∀ path ∈ paths, before.place directory <+: before.place path

section Several

variable {disk : Disk} {directory : String} {artifacts : List Artifact}
  (named : ∀ artifact ∈ artifacts, ∃ front last, Path.IsNamed artifact.path front last)
include named

theorem writeArtifacts_staysBelow (disk : Disk)
    (descends : ∀ artifact ∈ artifacts, Path.descends artifact.path = true) :
    (writeArtifacts disk directory artifacts).StaysBelow directory disk := by
  induction artifacts generalizing disk with
  | nil =>
    refine ⟨.refl disk, ?_⟩
    rintro paths ⟨⟩
    simp
  | cons artifact rest ih =>
    obtain ⟨confined, written⟩ := Artifact.write_confined (named artifact List.mem_cons_self)
      directory disk (descends artifact List.mem_cons_self)
    have others := ih (fun other member => named other (List.mem_cons_of_mem artifact member))
      (artifact.write disk directory).disk
      (fun other member => descends other (List.mem_cons_of_mem artifact member))
    unfold writeArtifacts
    dsimp only
    split
    · next fault failed => exact ⟨confined, by simp⟩
    · next path done =>
      refine ⟨confined.trans others.confined, ?_⟩
      intro paths all
      obtain ⟨tail, behind, rfl⟩ := Except.map_eq_ok_iff.mp all
      intro other member
      rcases List.mem_cons.mp member with rfl | member
      · exact written _ done
      · have inside := others.written tail behind other member
        rwa [Disk.place_eq confined.here, Disk.place_eq confined.here] at inside

theorem writeArtifacts_keeps {place : Place} (there : (disk.entry? place).isSome) :
    (Disk.entry? (writeArtifacts disk directory artifacts).disk place).isSome := by
  induction artifacts generalizing disk with
  | nil => exact there
  | cons artifact rest ih =>
    have kept := Artifact.write_keeps (named artifact List.mem_cons_self) directory there
    unfold writeArtifacts
    dsimp only
    split
    · exact kept
    · exact ih (fun other member => named other (List.mem_cons_of_mem artifact member)) kept

end Several

section Naming

namespace Target

/-- The directories of a Python package. -/
def folder (target : Target) (package : Option String) : String :=
  match target with
  | .python => ((package.map Python.packageParts).getD []).foldl Path.join ""
  | _ => ""

/-- How the names of the files end. -/
def endings : Target → List String
  | .cppStl => [".h", ".cpp"]
  | .python => [".py"]
  | .ruby => [".rb"]
  | .lua => [".lua"]
  | .wiresharkLua => ["_wireshark.lua"]

theorem isEnding_of_mem {target : Target} {ending : String} (member : ending ∈ target.endings) :
    Path.IsEnding ending := by
  have listed : ∀ ending ∈ target.endings,
      '/' ∉ ending.toList ∧ ending.toList.getLast?.any (· != '.') = true := by
    cases target <;> decide
  obtain ⟨plain, busy⟩ := listed ending member
  cases ends : ending.toList.getLast? with
  | none => simp [ends] at busy
  | some c => exact ⟨plain, c, ends, by simpa [ends] using busy⟩

/-- The files of a target are named after the format. -/
theorem paths_artifacts (target : Target) (package : Option String) (module : Module) :
    (target.artifacts package module).map Artifact.path = target.endings.map fun ending =>
      Path.join (target.folder package) (module.root.name ++ ending) := by
  have top : ∀ path, Path.join "" path = path := fun path => if_pos (by simp)
  cases target <;> simp [artifacts, endings, folder, top, CppStl.artifacts, Python.artifacts,
    Python.filePath, Ruby.artifacts, Lua.artifacts, Lua.dissectorArtifacts]

theorem exists_ending {target : Target} {package : Option String} {module : Module}
    {artifact : Artifact} (member : artifact ∈ target.artifacts package module) :
    ∃ ending, Path.IsEnding ending ∧
      artifact.path = Path.join (target.folder package) (module.root.name ++ ending) := by
  have listed := List.mem_map_of_mem (f := Artifact.path) member
  rw [paths_artifacts] at listed
  obtain ⟨ending, found, same⟩ := List.mem_map.mp listed
  exact ⟨ending, isEnding_of_mem found, same.symm⟩

end Target

/-- The pieces of a text between separators are parts of it without one. -/
theorem splitOn_piece {x : Char} {piece text : List Char} (member : piece ∈ text.splitOn x) :
    x ∉ piece ∧ piece ⊆ text := by
  induction text generalizing piece with
  | nil => simp_all
  | cons c rest ih =>
    rw [List.splitOn_cons_eq_if_modifyHead] at member
    split at member
    · rcases List.mem_cons.mp member with rfl | member
      · simp
      · exact (ih member).imp_right (List.subset_cons_of_subset c)
    · next other =>
      cases pieces : rest.splitOn x with
      | nil => simp [pieces] at member
      | cons first more =>
        rw [pieces, List.modifyHead_cons] at member
        rcases List.mem_cons.mp member with rfl | member
        · obtain ⟨plain, inside⟩ := ih (pieces ▸ List.mem_cons_self)
          refine ⟨fun found => ?_, List.cons_subset_cons c inside⟩
          rcases List.mem_cons.mp found with rfl | found
          · simp at other
          · exact plain found
        · have piece := ih (pieces ▸ List.mem_cons_of_mem first member)
          exact piece.imp_right (List.subset_cons_of_subset c)

theorem Target.Python.plain_of_mem_packageParts {package part : String}
    (plain : '/' ∉ package.toList) (member : part ∈ packageParts package) :
    '/' ∉ part.toList ∧ part ≠ ".." := by
  obtain ⟨listed, -⟩ := List.mem_filter.mp member
  obtain ⟨piece, found, rfl⟩ := List.mem_map.mp listed
  obtain ⟨undotted, inside⟩ := splitOn_piece found
  rw [String.toList_ofList]
  refine ⟨fun slash => plain (inside slash), ?_⟩
  intro up
  have spelled : piece = ['.', '.'] := by
    rw [← String.toList_ofList (l := piece), up]
    rfl
  simp [spelled] at undotted

/-- A name and a package without slashes lead down only. -/
theorem Target.descends_of_plain (target : Target) {package : Option String} {name : String}
    (plain : '/' ∉ name.toList) (parts : ∀ text ∈ package, '/' ∉ text.toList) :
    Path.descends (Path.join (target.folder package) name) = true := by
  have top : Path.IsBelow "" := ⟨rfl, rfl⟩
  refine (Path.IsBelow.join ?_ plain).1
  cases target with
  | python =>
    cases package with
    | none => exact top
    | some text =>
      exact top.foldl_join fun part => Python.plain_of_mem_packageParts (parts text rfl)
  | cppStl | ruby | lua | wiresharkLua => exact top

section Files

variable {target : Target} {package : Option String} {module : Module}

theorem Target.isNamed_of_mem : ∀ artifact ∈ target.artifacts package module,
    ∃ front last, Path.IsNamed artifact.path front last := by
  intro artifact member
  obtain ⟨ending, isEnding, same⟩ := exists_ending member
  obtain ⟨front, last, named⟩ := isEnding.exists_isNamed module.root.name
  obtain ⟨front, named⟩ := named.join (target.folder package)
  exact ⟨front, last, same ▸ named⟩

theorem Target.descends_of_mem : ∀ artifact ∈ target.artifacts package module,
    Path.descends artifact.path =
      Path.descends (Path.join (target.folder package) module.root.name) := by
  intro artifact member
  obtain ⟨ending, isEnding, same⟩ := exists_ending member
  rw [same]
  exact Path.descends_append isEnding.plain _ _

end Files

end Naming

section Emission

theorem Disk.place_fresh (path : String) :
    Disk.empty.place (Path.fresh path) = [Path.fresh path] := by
  have named := Path.isNamed_fresh path
  have start : Disk.empty.origin (Path.fresh path) = [] := ite_self _
  rw [Disk.place, start, named.pieces, List.nil_append, Place.travel_cons,
    Place.walk_name named.busy named.down]
  rfl

/-- A path that does not descend leaves every directory that it does not name. -/
theorem Disk.fresh_not_mem_place {path : String} (climbs : Path.descends path = false) :
    Path.fresh path ∉ Disk.empty.place (Path.join (Path.fresh path) path) := by
  have unnamed := Path.fresh_not_mem_pieces path
  cases absolute : Path.isAbsolute path with
  | true =>
    have start : Disk.empty.origin path = [] := ite_self _
    rw [Path.join_of_absolute _ absolute, Disk.place, start]
    exact Place.not_mem_travel (by simp) unnamed
  | false =>
    rw [Path.descends, absolute, Bool.not_false, Bool.true_and] at climbs
    rw [Disk.place_join _ absolute, Disk.place_fresh]
    generalize Path.fresh path = name at unnamed ⊢
    obtain ⟨front, last, spelled⟩ := Path.exists_last path
    rw [spelled] at climbs unnamed ⊢
    rw [List.dropLast_concat] at climbs
    rw [List.mem_append, not_or] at unnamed
    obtain ⟨first, behind⟩ := unnamed
    rw [Place.travel_append]
    exact Place.not_mem_travel (Place.not_mem_travel_of_climb climbs (by simp) first) behind

theorem Outcome.not_staysBelow {ε : Type} {outcome : Outcome ε (List String)} {directory : String}
    {before : Disk} {place : Place} (missing : before.entry? place = none)
    (there : (outcome.disk.entry? place).isSome) (outside : ¬ before.place directory <+: place)
    (aside : ¬ before.LeadsThrough directory place) : ¬ outcome.StaysBelow directory before := by
  intro stays
  rcases stays.confined.entry place outside with same | ⟨through, -⟩
  · simp [same, missing] at there
  · exact aside through

theorem writeArtifacts_of_clear {disk : Disk} {first : Artifact} {rest : List Artifact}
    (named : ∀ artifact ∈ first :: rest, ∃ front last, Path.IsNamed artifact.path front last)
    (clear : disk.Clear) (directory : String) :
    (Disk.entry? (writeArtifacts disk directory (first :: rest)).disk
      (disk.place (Path.join directory first.path))).isSome := by
  have there := Artifact.write_of_clear (named first List.mem_cons_self) directory clear
  unfold writeArtifacts
  dsimp only
  split
  · exact there
  · exact writeArtifacts_keeps
      (fun other member => named other (List.mem_cons_of_mem first member)) there

theorem Format.emit_eq {format : Format} {module : Module}
    (supported : format.supportedModule = .ok module) (target : Target) (destination : Destination)
    (disk : Disk) : format.emit target.name destination disk =
      writeArtifacts disk destination.directory (target.artifacts destination.package module) := by
  rw [Format.emit, format.artifacts_of_known target.ofName_name, supported]
  rfl

theorem Format.root_of_supported {format : Format} {module : Module}
    (supported : format.supportedModule = .ok module) : module.root = format :=
  (Module.ofFormat_eq_ok.mp (Format.supportedModule_eq_ok_iff.mp supported).1).1

theorem Format.emit_of_unsupported {format : Format} {fault : EmitFault}
    (unsupported : format.supportedModule = .error fault) (target : Target)
    (destination : Destination) (disk : Disk) :
    format.emit target.name destination disk = ⟨disk, .error fault⟩ := by
  apply Format.emit_of_error
  rw [format.artifacts_of_known target.ofName_name, unsupported]
  rfl

section Supported

variable {format : Format} {module : Module} {target : Target} {package : Option String}
  (supported : format.supportedModule = .ok module)
include supported

theorem Format.emit_of_descends
    (descends : Path.descends (Path.join (target.folder package) format.name) = true)
    (directory : String) (disk : Disk) :
    (format.emit target.name ⟨directory, package⟩ disk).StaysBelow directory disk := by
  rw [Format.emit_eq supported]
  refine writeArtifacts_staysBelow Target.isNamed_of_mem disk fun artifact member => ?_
  rw [Target.descends_of_mem artifact member, Format.root_of_supported supported]
  exact descends

/-- A path that does not descend leads out of some directory already on an empty disk. -/
theorem Format.emit_of_climb
    (climbs : Path.descends (Path.join (target.folder package) format.name) = false) :
    ∃ directory, ¬ (format.emit target.name ⟨directory, package⟩ .empty).StaysBelow directory
      .empty := by
  obtain ⟨first, rest, files⟩ : ∃ first rest, target.artifacts package module = first :: rest := by
    cases target <;> exact ⟨_, _, rfl⟩
  have member : first ∈ target.artifacts package module := files ▸ List.mem_cons_self
  rw [← Format.root_of_supported supported, ← Target.descends_of_mem first member] at climbs
  have left := Disk.fresh_not_mem_place climbs
  obtain ⟨front, last, named⟩ := Target.isNamed_of_mem first member
  obtain ⟨front, named⟩ := named.join (Path.fresh first.path)
  have below := Disk.empty.place_ne_nil named
  refine ⟨Path.fresh first.path, Outcome.not_staysBelow (Disk.entry_empty below) ?_ ?_ ?_⟩
  · rw [Format.emit_eq supported, files]
    exact writeArtifacts_of_clear (files ▸ Target.isNamed_of_mem) Disk.clear_empty _
  · rw [Disk.place_fresh]
    exact fun inside => left (inside.subset List.mem_cons_self)
  · -- The way to the directory goes through the root and the directory only.
    intro through
    rcases Disk.leadsThrough_cases (Path.isNamed_fresh first.path).pieces through with same | same
    · exact below (same.trans (ite_self _))
    · rw [Disk.place_fresh] at same
      exact left (same ▸ List.mem_cons_self)

end Supported

/-- The files of a target stay below every output directory, on every disk, exactly when the path
made of the package and the name of the format descends. It does if neither has a slash in it. -/
theorem Format.emit_staysBelow_iff (format : Format) (target : Target) (package : Option String) :
    ((∀ directory disk,
      (format.emit target.name ⟨directory, package⟩ disk).StaysBelow directory disk) ↔
      ((∃ module, format.supportedModule = .ok module) →
        Path.descends (Path.join (target.folder package) format.name) = true)) ∧
    ('/' ∉ format.name.toList → (∀ text ∈ package, '/' ∉ text.toList) →
      Path.descends (Path.join (target.folder package) format.name) = true) := by
  refine ⟨⟨?_, ?_⟩, fun plain parts => target.descends_of_plain plain parts⟩
  · rintro stays ⟨module, supported⟩
    by_contra climbs
    obtain ⟨directory, leaves⟩ := Format.emit_of_climb supported (Bool.not_eq_true _ ▸ climbs)
    exact leaves (stays directory .empty)
  · intro descends directory disk
    cases supported : format.supportedModule with
    | error fault =>
      rw [Format.emit_of_unsupported supported]
      exact ⟨.refl disk, by simp⟩
    | ok module =>
      exact Format.emit_of_descends supported (descends ⟨module, supported⟩) directory disk

/-- A format that keeps all rules can be called after a file that is next to the output directory,
and that file is written. -/
theorem Format.emit_named_outside :
    ({ name := "../x", order := .little } : Format).violation? = none ∧
    let outcome := Format.emit { name := "../x", order := .little } "ruby" ⟨"out", none⟩ .empty
    (outcome.disk.entry? ["x.rb"]).isSome ∧ ¬ outcome.StaysBelow "out" .empty := by
  have supported : Format.supportedModule { name := "../x", order := .little } =
      .ok ⟨{ name := "../x", order := .little }, []⟩ :=
    Format.supportedModule_eq_ok_iff.mpr ⟨rfl, by decide +kernel, rfl⟩
  have leads : Disk.empty.place (Path.join "out" ("../x" ++ ".rb")) = ["x.rb"] := by decide
  have there := writeArtifacts_of_clear (Target.isNamed_of_mem : ∀ artifact ∈
      Target.artifacts .ruby none ⟨{ name := "../x", order := .little }, []⟩, _)
    Disk.clear_empty "out"
  change (Disk.entry? _ (Disk.empty.place (Path.join "out" ("../x" ++ ".rb")))).isSome at there
  rw [leads] at there
  have emitted := Format.emit_eq supported .ruby ⟨"out", none⟩ .empty
  change Format.emit _ "ruby" _ _ = _ at emitted
  rw [emitted]
  refine ⟨by decide, there, Outcome.not_staysBelow (by decide) there (by decide) ?_⟩
  intro through
  have alone : Path.pieces "out" = ["out"] := by decide
  rcases Disk.leadsThrough_cases alone through with same | same
  · exact absurd same (by decide)
  · exact absurd same (by decide)

end Emission

end FormatCompiler
