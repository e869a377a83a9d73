import FormatCompiler.Compilation.Basic
import FormatCompiler.Proofs.ImportLoading
import FormatCompiler.Proofs.Outcome

/-!
Compilations that fail. What keeps files from being made, a scope that cannot be decoded,
something that is not supported or a root inside itself, keeps every target from making them. So it
shows at the first target, and no target has written anything yet. Once the first target has made
its files, only the disk can be at fault.
-/

namespace FormatCompiler

set_option autoImplicit false

/-- A directory could not be made, or a file could not be written. -/
def EmitFault.IsWriting : EmitFault → Prop
  | .directory _ _ => True
  | .file _ _ => True
  | _ => False

def CompileFault.IsWriting : CompileFault → Prop
  | .emit _ fault => fault.IsWriting
  | _ => False

section Making

/-- The module that every target makes its files of. -/
def Format.supportedModule (format : Format) : Except EmitFault Module :=
  match Module.ofFormat format with
  | .error bad => .error (.badScope bad)
  | .ok module =>
    match module.unsupported? with
    | some cause => .error (.unsupported cause)
    | none => if module.isEndless then .error .endless else .ok module

theorem Format.supportedModule_eq_ok_iff {format : Format} {module : Module} :
    format.supportedModule = .ok module ↔ Module.ofFormat format = .ok module ∧
      module.unsupported? = none ∧ module.isEndless = false := by
  unfold Format.supportedModule
  cases Module.ofFormat format with
  | error bad => simp
  | ok found =>
    dsimp only
    rw [Except.ok.injEq]
    constructor
    · intro made
      split at made
      · cases made
      · next supported =>
        split at made
        · cases made
        · next ends =>
          cases made
          exact ⟨rfl, supported, by simpa using ends⟩
    · rintro ⟨rfl, supported, ends⟩
      rw [supported]
      simp only [ends, Bool.false_eq_true, if_false]

theorem Target.ofName_name (target : Target) : ofName? target.name = some target := by
  cases target <;> rfl

theorem Format.artifacts_of_known (format : Format) {name : String} {target : Target}
    (known : Target.ofName? name = some target) (package : Option String) :
    format.artifacts name package = format.supportedModule.map (target.artifacts package) := by
  unfold Format.artifacts Format.supportedModule
  rw [known]
  cases Module.ofFormat format with
  | error bad => rfl
  | ok module =>
    dsimp only
    cases module.unsupported? with
    | some cause => rfl
    | none => cases module.isEndless <;> rfl

theorem Format.artifacts_eq_error_iff (format : Format) {name : String}
    (known : (Target.ofName? name).isSome) (package : Option String) (fault : EmitFault) :
    format.artifacts name package = .error fault ↔ format.supportedModule = .error fault := by
  obtain ⟨target, found⟩ := Option.isSome_iff_exists.mp known
  rw [format.artifacts_of_known found]
  cases format.supportedModule <;> simp [Except.map]

end Making

section Writing

variable {disk : Disk} {fault : EmitFault}

theorem Artifact.isWriting_of_write {artifact : Artifact} {directory : String}
    (failed : (artifact.write disk directory).result = .error fault) : fault.IsWriting := by
  unfold Artifact.write at failed
  dsimp only at failed
  split at failed
  · cases failed
    trivial
  · split at failed
    · cases failed
      trivial
    · cases failed

theorem isWriting_of_writeArtifacts {directory : String} {artifacts : List Artifact}
    (failed : (writeArtifacts disk directory artifacts).result = .error fault) :
    fault.IsWriting := by
  induction artifacts generalizing disk with
  | nil => cases failed
  | cons artifact rest ih =>
    unfold writeArtifacts at failed
    dsimp only at failed
    split at failed
    · next here =>
      cases failed
      exact Artifact.isWriting_of_write here
    · next path written =>
      apply ih
      exact Except.map_eq_error_iff.mp failed

end Writing

section Emission

variable {format : Format} {destination : Destination} {disk : Disk} {name : String}

/-- A target that makes no files leaves the disk alone. -/
theorem Format.emit_of_error {fault : EmitFault}
    (unmade : format.artifacts name destination.package = .error fault) :
    format.emit name destination disk = ⟨disk, .error fault⟩ := by
  simp only [Format.emit, unmade]

/-- A target that makes its files can only fail to write them. -/
theorem Format.isWriting_of_emit {artifacts : List Artifact} {fault : EmitFault}
    (made : format.artifacts name destination.package = .ok artifacts)
    (failed : (format.emit name destination disk).result = .error fault) : fault.IsWriting := by
  simp only [Format.emit, made] at failed
  exact isWriting_of_writeArtifacts failed

theorem isWriting_of_emitAll {module : Module} {names : List String} {fault : CompileFault}
    (known : ∀ name ∈ names, (Target.ofName? name).isSome)
    (supported : format.supportedModule = .ok module)
    (failed : (emitAll format destination disk names).result = .error fault) :
    fault.IsWriting := by
  induction names generalizing disk with
  | nil => cases failed
  | cons name rest ih =>
    obtain ⟨target, found⟩ := Option.isSome_iff_exists.mp (known name List.mem_cons_self)
    have made : format.artifacts name destination.package =
        .ok (target.artifacts destination.package module) := by
      rw [format.artifacts_of_known found, supported]
      rfl
    unfold emitAll at failed
    dsimp only at failed
    split at failed
    · next cause here =>
      cases failed
      exact Format.isWriting_of_emit made here
    · next paths written =>
      apply ih fun other member => known other (List.mem_cons_of_mem name member)
      exact Except.map_eq_error_iff.mp failed

/-- Several targets that are all known fail to write, or nothing is written for any of them: what
keeps one from making its files keeps the first one from it. -/
theorem emitAll_unwritten {names : List String} {fault : CompileFault}
    (known : ∀ name ∈ names, (Target.ofName? name).isSome)
    (failed : (emitAll format destination disk names).result = .error fault)
    (other : ¬ fault.IsWriting) :
    (emitAll format destination disk names).disk = disk := by
  cases supported : format.supportedModule with
  | ok module => exact absurd (isWriting_of_emitAll known supported failed) other
  | error cause =>
    cases names with
    | nil => rfl
    | cons name rest =>
      have unmade : format.artifacts name destination.package = .error cause :=
        (format.artifacts_eq_error_iff (known name List.mem_cons_self) _ _).mpr supported
      simp only [emitAll, Format.emit_of_error unmade]

end Emission

theorem known_of_prepare {disk : Disk} {path : String} {options : Options}
    {prepared : Format × List Diagnostic} (ready : prepare disk path options = .ok prepared) :
    ∀ name ∈ options.targets, (Target.ofName? name).isSome := by
  unfold prepare at ready
  split at ready
  · cases ready
  · split at ready
    · cases ready
    · next none =>
      intro name member
      have known := List.find?_eq_none.mp none name member
      simpa [Option.isSome_iff_ne_none] using known

/-- Whether and how a format keeps its files from being made is the same for all known targets. And
a compilation that fails, but not by a directory that cannot be made or a file that cannot be
written, leaves the disk as it was, however many targets it has. -/
theorem failed_compilation_writes_nothing :
    (∀ (format : Format) (first second : String) (package other : Option String)
      (fault : EmitFault), (Target.ofName? first).isSome → (Target.ofName? second).isSome →
        (format.artifacts first package = .error fault ↔
          format.artifacts second other = .error fault)) ∧
    ∀ (disk : Disk) (path : String) (options : Options) (fault : CompileFault),
      (compile disk path options).result = .error fault → ¬ fault.IsWriting →
        (compile disk path options).disk = disk := by
  constructor
  · intro format first second package other fault knownFirst knownSecond
    rw [format.artifacts_eq_error_iff knownFirst, format.artifacts_eq_error_iff knownSecond]
  · intro disk path options fault failed unwriting
    unfold compile at failed ⊢
    cases ready : prepare disk path options with
    | error cause => rfl
    | ok prepared =>
      rw [ready] at failed
      exact emitAll_unwritten (known_of_prepare ready) (Except.map_eq_error_iff.mp failed) unwriting

/-- A disk with a listing that computes a power, which no target has an operator for. -/
def powerListing : Disk :=
  Disk.holding [("p", Imports.textOf ["KSIR1", "name p", "default_endian le", "types 0", "attrs 0",
    "enums 0", "instances 1", "instance x '(bin \"**\" (int 2) (int 3))'", "validations 0", "end"])]

/-- Of two targets the first one finds the operator that it lacks. -/
theorem failed_compilation_writes_nothing_power :
    let options : Options := { targets := ["python", "cpp_stl"] }
    let fault : CompileFault := .emit "python" (.unsupported (.binaryOperator "**"))
    (compile powerListing "p" options).result = .error fault ∧ ¬ fault.IsWriting ∧
      (compile powerListing "p" options).disk = powerListing := by
  intro options fault
  let format : Format :=
    { name := "p", order := .little,
      instances := [⟨"x", .value (.binary "**" (.int 2) (.int 3))⟩] }
  have located : powerListing.locate "p" = .ok ["p"] :=
    Except.toOption_eq_some_iff.mp (by decide +kernel)
  have read : Imports.readAt powerListing ["p"] = .ok format :=
    Except.toOption_eq_some_iff.mp (by decide +kernel)
  have loaded : Imports.load powerListing [] "p" = .ok format :=
    Imports.load_alone located read rfl (by decide)
  have unsupported : format.supportedModule = .error (.unsupported (.binaryOperator "**")) := rfl
  have unmade : format.artifacts "python" options.destination.package =
      .error (.unsupported (.binaryOperator "**")) :=
    (format.artifacts_eq_error_iff rfl _ _).mpr unsupported
  have ready : prepare powerListing "p" options = .ok (format, []) := by
    simp only [prepare, options, loaded]
    rfl
  have failed : (compile powerListing "p" options).result = .error fault := by
    simp only [compile, ready, options, emitAll, Format.emit_of_error unmade]
    rfl
  exact ⟨failed, id, failed_compilation_writes_nothing.2 _ _ _ _ failed id⟩

end FormatCompiler
