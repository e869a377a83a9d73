import FormatCompiler.Proofs.CompilationFailure
import FormatCompiler.Proofs.FieldCoherence
import FormatCompiler.Proofs.TargetBlocks

/-!
The margins of generated files. Levels, blocks and margins of the files of a target are right
together, and they are as long as scopes do not stand too deep one inside the other. A chain of 254
scopes is too deep for `python`, one of 250 is not. A root inside itself has no files, and its
classes are deeper than any bound.
-/

namespace FormatCompiler

set_option autoImplicit false

namespace Target

open Code (Plain Hosts Balanced Misprints)

/-- The files that a target makes of a module. -/
def files (target : Target) (module : Module) : List Code :=
  match target with
  | .cppStl => [CppStl.header module, CppStl.source module]
  | .python => [Python.file module]
  | .ruby => [Ruby.file module]
  | .lua => [Lua.file module]
  | .wiresharkLua => [Lua.file module ++ Lua.dissector module]

/-- What a target puts before a line for each level. -/
def unit : Target → String
  | .cppStl => "    "
  | .python => "    "
  | .ruby => "  "
  | .lua => "  "
  | .wiresharkLua => "  "

/-- The way a target makes a class around other classes, if it does so. -/
def nesting? : Target → Option (Scope → List Code → Code)
  | .cppStl => some CppStl.classDecl
  | .python => some Python.classCode
  | .ruby => some Ruby.classCode
  | .lua => none
  | .wiresharkLua => none

/-- No scope is met so deep that its class, where it stands in other classes, has no room. -/
def HasRoom (target : Target) (module : Module) : Prop :=
  ∀ combine ∈ target.nesting?, module.HasRoom combine

theorem content_artifacts (target : Target) (package : Option String) (module : Module) :
    (target.artifacts package module).map Artifact.content =
      (target.files module).map (Code.render target.unit) := by
  cases target <;> simp only [artifacts, CppStl.artifacts, Python.artifacts, Ruby.artifacts,
    Lua.artifacts, Lua.dissectorArtifacts, files, unit, List.map_cons, List.map_nil]

theorem hosts_nesting {target : Target} {combine : Scope → List Code → Code}
    (nests : combine ∈ target.nesting?) (scope : Scope) : Hosts 1 5 (combine scope) := by
  cases target with
  | cppStl => exact Option.some.inj nests ▸ CppStl.hosts_classDecl
  | python => exact Option.some.inj nests ▸ Python.hosts_classCode
  | ruby => exact Option.some.inj nests ▸ Ruby.hosts_classCode
  | lua => cases nests
  | wiresharkLua => cases nests

/-- Files that show whether more than 255 blocks are open at a time, which is when there is no room
for something. -/
structure Exposes (room : Prop) (files : List Code) : Prop where
  balanced : ∀ file ∈ files, Balanced file
  misprints : ∀ file ∈ files, 255 < file.depth → Misprints .start 0 file
  depth_le : (∀ file ∈ files, file.depth ≤ 255) ↔ room

namespace Exposes

variable {room : Prop} {files : List Code} {module : Module}

theorem nil : Exposes True [] :=
  ⟨List.forall_mem_nil _, List.forall_mem_nil _, iff_true_intro (List.forall_mem_nil _)⟩

theorem cons_plain {file : Code} (plain : Plain 5 file) (exposes : Exposes room files) :
    Exposes room (file :: files) := by
  have shallow : file.depth ≤ 255 := Nat.le_trans plain.depth_le (by decide)
  refine ⟨List.forall_mem_cons.mpr ⟨plain.balanced, exposes.balanced⟩,
    List.forall_mem_cons.mpr ⟨fun beyond => ?_, exposes.misprints⟩, ?_⟩
  · exact absurd beyond (Nat.not_lt_of_le shallow)
  · rw [List.forall_mem_cons, exposes.depth_le, and_iff_right shallow]

theorem cons_nested {first : Code} (plain : Plain 5 first) {combine : Scope → List Code → Code}
    (hosts : ∀ scope, Hosts 1 5 (combine scope)) (exposes : Exposes True files) :
    Exposes (module.HasRoom combine) ((first ++ module.foldScopes combine) :: files) := by
  have classes : Code.Reveals (module.foldScopes combine) :=
    Module.foldFrom_induction (fun scope => (hosts scope).reveals) module _ _
  refine ⟨List.forall_mem_cons.mpr ⟨plain.balanced.append classes.balanced, exposes.balanced⟩,
    List.forall_mem_cons.mpr ⟨plain.misprints_append (by decide) classes, exposes.misprints⟩, ?_⟩
  have least := plain.depth_le
  rw [List.forall_mem_cons, exposes.depth_le, and_true, ← Module.depth_foldScopes_le hosts,
    plain.balanced.depth_append]
  omega

end Exposes

theorem exposes_python (module : Module) :
    Exposes (module.HasRoom Python.classCode) [Python.file module] := by
  refine .cons_nested ?_ (fun _ => Python.hosts_classCode) .nil
  refine .append (.append (.append (.append (.append ?_ ?_) ?_) ?_) ?_) (.blankIf _)
  · exact .line (.line (.blank (.line (.line .nil))))
  · split
    · exact .line .nil
    · exact .nil
  · exact .blank (.line .nil)
  · exact .block (.line .nil)
  · exact .blank (.lines _)

theorem exposes_ruby (module : Module) :
    Exposes (module.HasRoom Ruby.classCode) [Ruby.file module] := by
  refine .cons_nested ?_ (fun _ => Ruby.hosts_classCode) .nil
  refine .append (.append (.append (.append ?_ (.lines _)) ?_) ?_) ?_
  · exact .line (.blank (.line .nil))
  · exact .blank (.line .nil)
  · exact .block (.line .nil)
  · exact .line (.blank .nil)

theorem plain_source (module : Module) : Plain 5 (CppStl.source module) := by
  refine .append (.append (.line (.blank (.line .nil))) ?_) (.blank ?_)
  · split
    · exact .line .nil
    · exact .nil
  · exact Module.foldFrom_induction (fun _ => CppStl.plain_classDefs) module _ _

theorem exposes_cppStl (module : Module) : Exposes (module.HasRoom CppStl.classDecl)
    [CppStl.header module, CppStl.source module] := by
  refine .cons_nested ?_ (fun _ => CppStl.hosts_classDecl) (.cons_plain (plain_source module) .nil)
  refine .append (.append (.append ?_ (.lines _)) ?_) ?_
  · exact .line (.blank (.line (.blank (.line (.blank (.line (.line (.line (.line .nil)))))))))
  · exact .blank (.line (.line (.line (.blank .nil))))
  · exact .flatMap fun decl _ => CppStl.plain_rootEnum decl

theorem plain_lua (module : Module) : Plain 5 (Lua.file module) := by
  refine .append (.append ?_ (.lines _)) ?_
  · exact .line (.line (.line (.blank (.line (.line .nil)))))
  · exact Module.foldFrom_induction (fun _ => Lua.plain_classCode) module _ _

theorem exposes_files (target : Target) (module : Module) :
    Exposes (target.HasRoom module) (target.files module) := by
  have some {combine : Scope → List Code → Code} (nests : target.nesting? = some combine) :
      target.HasRoom module ↔ module.HasRoom combine := by
    simp [HasRoom, nests]
  have none (flat : target.nesting? = none) : target.HasRoom module ↔ True := by
    simp [HasRoom, flat]
  cases target with
  | cppStl => exact propext (some rfl) ▸ exposes_cppStl module
  | python => exact propext (some rfl) ▸ exposes_python module
  | ruby => exact propext (some rfl) ▸ exposes_ruby module
  | lua => exact propext (none rfl) ▸ .cons_plain (plain_lua module) .nil
  | wiresharkLua =>
    exact propext (none rfl) ▸
      .cons_plain ((plain_lua module).append (Lua.plain_dissector module)) .nil

/-- Levels, blocks and margins of all files of a target are right together. -/
theorem levels_tfae (target : Target) (module : Module) :
    List.TFAE [∀ file ∈ target.files module, Code.Tracks .start 0 file,
      ∀ file ∈ target.files module, Code.BlocksReturn .start file,
      ∀ file ∈ target.files module, Code.HasMargins target.unit file,
      target.HasRoom module] := by
  have exposes := target.exposes_files module
  have visible : target.unit.length ≠ 0 := by cases target <;> decide
  have each := fun file member =>
    (exposes.balanced file member).tfae (exposes.misprints file member) visible
  tfae_have 1 ↔ 2 := forall₂_congr fun file member => (each file member).out 0 1
  tfae_have 1 ↔ 3 := forall₂_congr fun file member => (each file member).out 0 2
  tfae_have 1 ↔ 4 := (forall₂_congr fun file member => (each file member).out 0 3).trans
    exposes.depth_le
  tfae_finish

end Target

/-! ### Scopes one inside the other -/

/-- Nothing but names and types. -/
structure Format.IsBare (format : Format) : Prop where
  fields : format.fields = []
  enums : format.enums = []
  instances : format.instances = []
  validations : format.validations = []

theorem Module.unsupported_of_bare {module : Module}
    (bare : ∀ scope ∈ module.scopes, scope.format.IsBare) : module.unsupported? = none := by
  refine List.findSome?_eq_none_iff.mpr fun scope listed => ?_
  obtain ⟨fields, -, instances, validations⟩ := bare scope listed
  rw [Subset.rejectScope, fields, instances, validations]
  rfl

theorem Target.Python.depth_classCode {scope : Scope} (bare : scope.format.IsBare) :
    (classCode scope []).depth = 2 := by
  obtain ⟨fields, enums, instances, validations⟩ := bare
  simp [classCode, fields, enums, instances, validations, Code.depth, Code.deepest, Code.opening,
    Code.block]

namespace Format

/-- A path of one name, or of some more inside it. -/
def chainPath : Nat → String
  | 0 => "a"
  | depth + 1 => chainPath depth ++ "::a"

/-- A format with nothing in it. -/
def leaf : Format where
  name := "leaf"
  order := .little

/-- Scopes one inside the other, the innermost declared first. -/
def chain (size : Nat) : Format where
  name := "top"
  order := .little
  types := (List.range size).reverse.map fun depth => ⟨chainPath depth, .embed leaf⟩

variable {size : Nat}

theorem length_chainPath (depth : Nat) : (chainPath depth).length = 3 * depth + 1 := by
  induction depth with
  | zero => rfl
  | succ depth ih =>
    rw [chainPath, String.length_append, ih]
    rfl

theorem chainPath_ne_empty (depth : Nat) : chainPath depth ≠ "" := by
  intro empty
  have length := length_chainPath depth
  rw [empty] at length
  exact absurd length (Nat.ne_of_lt (Nat.succ_pos _))

theorem cutLast_chainPath (depth : Nat) :
    Name.cutLast (chainPath (depth + 1)).toList = some ((chainPath depth).toList, ['a']) := by
  have mark : Name.cutLast "::a".toList = some ([], ['a']) := by decide
  rw [chainPath, String.toList_append, Name.cutLast_append _ mark, List.append_nil]

theorem enclosing_chainPath (depth : Nat) :
    Name.enclosing (chainPath (depth + 1)) = chainPath depth := by
  rw [Name.enclosing_of_cutLast (cutLast_chainPath depth), String.ofList_toList]

theorem length_descent_chainPath (depth : Nat) :
    (Name.descent (chainPath depth)).length = depth + 1 := by
  induction depth with
  | zero =>
    have top : Name.enclosing (chainPath 0) = "" := by decide
    rw [Name.descent_inside (chainPath_ne_empty 0), top, Name.descent_root]
    rfl
  | succ depth ih =>
    rw [Name.descent_inside (chainPath_ne_empty _), enclosing_chainPath, List.length_append, ih]
    rfl

theorem head_chainPath (depth : Nat) : (chainPath depth).toList.head? = some 'a' := by
  induction depth with
  | zero => rfl
  | succ depth ih => rw [chainPath, String.toList_append, List.head?_append, ih]; rfl

theorem pathOf_chainPath (depth : Nat) :
    Module.pathOf (chain size) (chainPath depth) = chainPath depth := by
  have foreign : Name.relativeTo "top" (chainPath depth) = none := by
    rw [Option.eq_none_iff_forall_ne_some]
    intro relative rooted
    have shape := Name.relativeTo_eq_some_iff.mp rooted
    have first := head_chainPath depth
    rw [shape, String.toList_append, String.toList_append, List.append_assoc] at first
    exact absurd (Option.some.inj first) (by decide)
  change (Name.relativeTo "top" (chainPath depth)).getD (chainPath depth) = chainPath depth
  rw [foreign]
  rfl

theorem mem_types_chain {decl : TypeDecl} : decl ∈ (chain size).types ↔ ∃ depth < size,
    decl = ⟨chainPath depth, .embed leaf⟩ := by
  simp [chain, eq_comm]

theorem chainPath_injective : Function.Injective chainPath := by
  intro one other same
  have lengths := congrArg String.length same
  rw [length_chainPath, length_chainPath] at lengths
  omega

theorem violation_chain : (chain size).violation? = none := by
  refine violation_of_embeds (by decide) (List.nodup_cons.mpr ⟨?_, ?_⟩) ?_ (List.forall_mem_nil _)
  · intro member
    obtain ⟨depth, -, same⟩ : ∃ depth < size, chainPath depth = "top" := by simpa using member
    have length := length_chainPath depth
    rw [same] at length
    change 3 = 3 * depth + 1 at length
    omega
  · rw [List.map_map]
    exact (List.nodup_reverse.mpr List.nodup_range).map chainPath_injective
  · intro decl member
    obtain ⟨depth, -, rfl⟩ := mem_types_chain.mp member
    exact ⟨chainPath_ne_empty depth, _, rfl⟩

theorem listable_leaf : leaf.IsListable := ⟨by decide, by decide⟩

theorem exists_module_chain (size : Nat) : ∃ module, Module.ofFormat (chain size) = .ok module := by
  have built : ∀ (depths : List Nat) nested, ∃ result, Module.addScopes (chain size) nested
      (depths.map fun depth => ⟨chainPath depth, .embed leaf⟩) = .ok result := by
    intro depths
    induction depths with
    | nil => exact fun nested => ⟨nested, rfl⟩
    | cons depth rest ih =>
      intro nested
      rw [List.map_cons, Module.addScopes_embed _ _ _ listable_leaf]
      exact ih _
  obtain ⟨nested, scopes⟩ := built (List.range size).reverse []
  exact ⟨⟨chain size, nested⟩, Module.ofFormat_eq_ok.mpr ⟨rfl, scopes⟩⟩

variable {module : Module}

theorem bare_of_chain (built : Module.ofFormat (chain size) = .ok module) :
    ∀ scope ∈ module.scopes, scope.format.IsBare := by
  refine (Module.forall_scope_iff built ⟨rfl, rfl, rfl, rfl⟩).mpr ?_
  intro decl member format carried _
  obtain ⟨depth, -, rfl⟩ := mem_types_chain.mp (List.mem_of_mem_filter member)
  rw [TypeDecl.carried_embed _ _ listable_leaf, Option.some.injEq] at carried
  subst carried
  exact ⟨rfl, rfl, rfl, rfl⟩

theorem mem_paths_chain (built : Module.ofFormat (chain size) = .ok module) {path : String} :
    path ∈ module.paths ↔ ∃ depth < size, path = chainPath depth := by
  rw [Module.mem_paths_iff built]
  constructor
  · rintro ⟨decl, member, rfl⟩
    obtain ⟨depth, less, rfl⟩ := mem_types_chain.mp (List.mem_of_mem_filter member)
    exact ⟨depth, less, pathOf_chainPath depth⟩
  · rintro ⟨depth, less, rfl⟩
    refine ⟨_, List.mem_filter.mpr ⟨mem_types_chain.mpr ⟨depth, less, rfl⟩, ?_⟩,
      pathOf_chainPath depth⟩
    exact TypeDecl.carries_embed _ _

theorem proper_chain (built : Module.ofFormat (chain size) = .ok module) : "" ∉ module.paths := by
  intro root
  obtain ⟨depth, -, same⟩ := (mem_paths_chain built).mp root
  exact chainPath_ne_empty depth same.symm

/-- Every scope of the chain is met, and the innermost under all the names. -/
theorem visited_chain (built : Module.ofFormat (chain size) = .ok module) {depth : Nat}
    (less : depth < size) :
    ∃ names, (chainPath depth, names) ∈ module.visits ∧ names.length = depth + 2 := by
  have proper := proper_chain built
  have enclosed : ∀ path ∈ module.paths,
      Name.enclosing path = "" ∨ Name.enclosing path ∈ module.paths := by
    intro path member
    obtain ⟨depth, less, rfl⟩ := (mem_paths_chain built).mp member
    cases depth with
    | zero => exact .inl (by decide)
    | succ depth =>
      rw [enclosing_chainPath]
      exact .inr ((mem_paths_chain built).mpr ⟨depth, by omega, rfl⟩)
  have stored := (mem_paths_chain built).mpr ⟨depth, less, rfl⟩
  have met := (Module.mem_visits_paths_iff proper _).mpr
    ((Module.below_root_iff proper).mpr enclosed _ stored)
  obtain ⟨⟨_, names⟩, visited, rfl⟩ := List.mem_map.mp met
  refine ⟨names, visited, ?_⟩
  rw [Module.names_of_mem_visits proper visited, List.length_cons, length_descent_chainPath]

/-- No scope of the chain is met under more names than there are scopes and a root. -/
theorem names_chain (built : Module.ofFormat (chain size) = .ok module) :
    ∀ visited ∈ module.visits, visited.2.length ≤ size + 1 := by
  rintro ⟨path, names⟩ visited
  have proper := proper_chain built
  rw [Module.names_of_mem_visits proper visited, List.length_cons]
  have below := (Module.mem_visits_paths_iff proper path).mp (List.mem_map_of_mem visited)
  rcases below.cases_head with rfl | ⟨outer, inside, -⟩
  · rw [Name.descent_root]
    exact Nat.succ_le_succ (Nat.zero_le size)
  · obtain ⟨depth, less, rfl⟩ := (mem_paths_chain built).mp (Module.mem_children_iff.mp inside).1
    rw [length_descent_chainPath]
    omega

end Format

/-- The margins of the files that a target makes. Where there is an end to the scopes, the level is
the number of open blocks at every point of every file exactly when every block returns to the level
it began at, exactly when every line has a unit in front for each block around it, and exactly when
no class that stands in other classes is so deep that more than 255 blocks would be open. Scopes may
always be 251 names deep, and as deep as they like where classes stand side by side. Where the root
is inside itself no file is made, and classes inside classes open as many blocks as levels are gone
down. -/
theorem Target.artifacts_indented_tfae (target : Target) (package : Option String)
    (module : Module) :
    (module.isEndless = false →
      (target.artifacts package module).map Artifact.content =
          (target.files module).map (Code.render target.unit) ∧
        List.TFAE [∀ file ∈ target.files module, Code.Tracks .start 0 file,
          ∀ file ∈ target.files module, Code.BlocksReturn .start file,
          ∀ file ∈ target.files module, Code.HasMargins target.unit file,
          target.HasRoom module] ∧
        ((∀ visited ∈ module.visits, visited.2.length ≤ 251) → target.HasRoom module)) ∧
    (module.isEndless = true →
      (∀ format, Module.ofFormat format = .ok module → module.unsupported? = none →
        format.artifacts target.name package = .error .endless) ∧
      ∀ combine ∈ target.nesting?, ∀ depth,
        depth ≤ (Module.foldFrom combine module depth module.rootScope).depth) := by
  refine ⟨fun _ => ⟨target.content_artifacts package module, target.levels_tfae module, ?_⟩,
    fun endless => ⟨?_, ?_⟩⟩
  · intro shallow combine nests
    exact Module.hasRoom_of_shallow (Target.hosts_nesting nests) shallow
  · intro format built supported
    rw [format.artifacts_of_known target.ofName_name, Format.supportedModule, built]
    simp only [supported, endless, if_true]
    rfl
  · intro combine nests depth
    exact Module.le_depth_foldFrom (Target.hosts_nesting nests) (Module.isEndless_iff.mp endless)
      depth

/-- A chain of 250 scopes has room in every target. -/
theorem Target.artifacts_indented_tfae_chain :
    let root := Format.chain 250
    root.violation? = none ∧ ∃ module, Module.ofFormat root = .ok module ∧
      module.unsupported? = none ∧ module.isEndless = false ∧
      ∀ target : Target, ∀ file ∈ target.files module, Code.HasMargins target.unit file := by
  intro root
  obtain ⟨module, built⟩ := Format.exists_module_chain 250
  have ends := Module.not_isEndless_iff.mpr (Format.proper_chain built)
  refine ⟨Format.violation_chain, module, built,
    Module.unsupported_of_bare (Format.bare_of_chain built), ends, fun target => ?_⟩
  obtain ⟨-, levels, room⟩ := (Target.artifacts_indented_tfae target none module).1 ends
  exact (levels.out 2 3).mpr (room (Format.names_chain built))

/-- In scopes that deep one inside the other the last level is one too many. -/
theorem Target.not_indented_chain :
    let root := Format.chain 254
    root.violation? = none ∧ ∃ module, Module.ofFormat root = .ok module ∧
      module.unsupported? = none ∧ module.isEndless = false ∧
      ¬ (∀ file ∈ Target.python.files module, Code.Tracks .start 0 file) ∧
      ¬ (∀ file ∈ Target.python.files module, Code.BlocksReturn .start file) ∧
      ¬ ∀ file ∈ Target.python.files module, Code.HasMargins Target.python.unit file := by
  intro root
  obtain ⟨module, built⟩ := Format.exists_module_chain 254
  have bare := Format.bare_of_chain built
  have full : ¬ Target.python.HasRoom module := by
    intro room
    obtain ⟨names, visited, deep⟩ := Format.visited_chain built (by decide : 253 < 254)
    have stored := (Format.mem_paths_chain built).mpr ⟨253, by decide, rfl⟩
    obtain ⟨scope, found⟩ := Module.scope_of_mem_paths stored
    have fits := room _ rfl _ visited scope found
    have listed : scope ∈ module.scopes :=
      List.mem_cons_of_mem _ (List.mem_filterMap.mpr ⟨_, stored, found⟩)
    rw [Target.Python.depth_classCode (bare scope listed), deep] at fits
    omega
  have levels := Target.python.levels_tfae module
  have ends := Module.not_isEndless_iff.mpr (Format.proper_chain built)
  refine ⟨Format.violation_chain, module, built, Module.unsupported_of_bare bare, ends, ?_, ?_, ?_⟩
  · exact fun tracks => full ((levels.out 0 3).mp tracks)
  · exact fun returns => full ((levels.out 1 3).mp returns)
  · exact fun margins => full ((levels.out 2 3).mp margins)

end FormatCompiler
