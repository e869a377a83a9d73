import FormatCompiler.Compilation.Emission
import FormatCompiler.Proofs.CodeLevels
import FormatCompiler.Proofs.ScopeTree
import FormatCompiler.Proofs.SizedText

/-!
The libraries that `lua` readers load. What a module needs is told from the types its scopes
declare, and what its readers call from the types they read. The two agree, but for a switch: its
cases are read, and the type it declares is looked at.
-/

namespace FormatCompiler

set_option autoImplicit false

namespace Code

theorem foldl_advance_lines (levels : Levels) (texts : List String) :
    (lines texts).foldl advance levels = levels := by
  induction texts with
  | nil => rfl
  | cons text rest ih => exact ih

/-- Lines that nothing is stepped in before have no margin. -/
theorem writtenFrom_lines (unit : String) (texts : List String) :
    writtenFrom unit .start (lines texts) = texts.map (· ++ "\n") := by
  have margin : margin unit 0 = "" := rfl
  induction texts with
  | nil => rfl
  | cons text rest ih =>
    change written unit 0 (.line text) :: writtenFrom unit .start (lines rest) = _
    rw [ih, List.map_cons, written, margin, String.empty_append]

/-- Lines between code that ends where it started and other code. -/
theorem render_lines_between (unit : String) {first : Code}
    (levels : first.foldl advance .start = .start) (texts : List String) (last : Code) :
    render unit (first ++ lines texts ++ last) =
      render unit first ++ String.join (texts.map (· ++ "\n")) ++ render unit last := by
  rw [render, writtenFrom_append, writtenFrom_append, List.foldl_append, levels,
    foldl_advance_lines, writtenFrom_lines, String.join_append, String.join_append]
  rfl

end Code

namespace Module

/-- The scopes that code is made of, in the order in which it is made. -/
def emitted (module : Module) : List Scope :=
  module.foldScopes fun scope below => scope :: below.flatten

/-- Code in which the scopes inside come last is the code of each scope, one after the other. -/
theorem foldScopes_eq_flatMap {α : Type} {combine : Scope → List (List α) → List α}
    {own : Scope → List α}
    (last : ∀ scope nested, combine scope nested = own scope ++ nested.flatten)
    (module : Module) : module.foldScopes combine = module.emitted.flatMap own := by
  suffices every : ∀ depth scope, foldFrom combine module depth scope =
      (foldFrom (fun scope below => scope :: below.flatten) module depth scope).flatMap own from
    every _ _
  intro depth
  induction depth with
  | zero =>
    intro scope
    simp [foldFrom, last]
  | succ depth ih =>
    intro scope
    rw [foldFrom_succ, foldFrom_succ, last, List.flatMap_cons, ← List.flatMap_def,
      ← List.flatMap_def, List.flatMap_assoc, funext ih]

theorem mem_scopes_of_emitted {module : Module} {scope : Scope}
    (met : scope ∈ module.emitted) : scope ∈ module.scopes := by
  suffices below : ∀ depth, ∀ start ∈ module.scopes,
      ∀ scope ∈ foldFrom (fun scope below => scope :: below.flatten) module depth start,
        scope ∈ module.scopes from below _ _ List.mem_cons_self scope met
  intro depth
  induction depth with
  | zero =>
    intro start listed scope met
    rwa [List.mem_singleton.mp met]
  | succ depth ih =>
    intro start listed scope met
    rw [foldFrom_succ] at met
    rcases List.mem_cons.mp met with rfl | met
    · exact listed
    · obtain ⟨inside, made, member⟩ := List.mem_flatten.mp met
      obtain ⟨child, found, rfl⟩ := List.mem_map.mp made
      obtain ⟨path, stored, there⟩ := List.mem_filterMap.mp found
      have inModule := List.mem_filterMap.mpr ⟨path, (mem_children_iff.mp stored).1, there⟩
      exact ih child (List.mem_cons_of_mem _ inModule) scope member

end Module

namespace Target.Lua

/-- What a file has behind its classes. -/
def closing (target : Target) (module : Module) : Code :=
  match target with
  | .wiresharkLua => dissector module
  | _ => []

/-- A file, with the reads of its classes set apart. -/
theorem file_eq (module : Module) : file module =
    opening ++ Code.lines (requires module) ++
      module.emitted.flatMap fun scope => (classTemplate scope).code (dialect scope) := by
  have classes : module.foldScopes classCode =
      module.emitted.flatMap fun scope => (classTemplate scope).code (dialect scope) :=
    module.foldScopes_eq_flatMap fun _ _ => rfl
  rw [file, classes]

/-- What the `lua` targets write is the file, with what comes behind its classes. -/
theorem contents_artifacts {target : Target} (isLua : target = .lua ∨ target = .wiresharkLua)
    (package : Option String) (module : Module) :
    (target.artifacts package module).map Artifact.content =
      [(file module ++ closing target module).render "  "] := by
  rcases isLua with rfl | rfl
  · simp only [Target.artifacts, artifacts, closing, List.append_nil, List.map_cons, List.map_nil]
  · simp only [Target.artifacts, dissectorArtifacts, closing, List.map_cons, List.map_nil]

/-! ### What is loaded -/

theorem decoderLine_mem_iff (module : Module) :
    decoderLine ∈ requires module ↔ ∃ scope ∈ module.scopes, needsDecoder scope = true := by
  have other : decoderLine ≠ enumLine := by decide
  have stems : decoderLine ∉ module.importedStems.map fun stem => s!"require(\"{stem}\")" := by
    intro member
    obtain ⟨stem, -, same⟩ := List.mem_map.mp member
    change "require(\"" ++ stem ++ "\")" = decoderLine at same
    have first := congrArg (fun line : String => line.toList.head?) same
    simp [decoderLine] at first
  have listed : decoderLine ∈ requires module ↔
      decoderLine ∈ if module.scopes.any needsDecoder then [decoderLine] else [] := by
    change decoderLine ∈ (if module.scopes.any fun scope => !scope.format.enums.isEmpty then
      [enumLine] else []) ++ (if module.scopes.any needsDecoder then [decoderLine] else []) ++ _ ↔ _
    rw [List.mem_append, List.mem_append]
    simp [stems, other]
  rw [listed]
  simp

theorem enumLine_mem {module : Module} {scope : Scope} (listed : scope ∈ module.scopes)
    (declares : scope.format.enums ≠ []) : enumLine ∈ requires module := by
  have found : (module.scopes.any fun scope => !scope.format.enums.isEmpty) = true :=
    List.any_eq_true.mpr ⟨scope, listed, by simpa using declares⟩
  unfold requires
  rw [if_pos found]
  exact List.mem_append_left _ (List.mem_append_left _ (List.mem_singleton_self _))

end Target.Lua

/-! ### What is called -/

namespace Target.Lua

/-- Text of a given size is read by a call of the decoder, whatever is made of it then. -/
theorem text_of_isSizedText {scope : Scope} {kept : Kept}
    (sized : kept.read.isSizedText = true) : ∃ before size encoding after : String,
      kept.text (dialect scope) = before ++
        s!"str_decode.decode(self._io:read_bytes({size}), \"{encoding}\")" ++ after := by
  obtain ⟨enumName, read⟩ := kept
  obtain ⟨size, encoding, rfl⟩ := Read.eq_text_of_isSizedText sized
  cases enumName with
  | none =>
    refine ⟨"", (dialect scope).expr size, encoding.getD defaultEncoding, "", ?_⟩
    rw [String.empty_append, String.append_empty]
    rfl
  | some reference =>
    exact ⟨scope.enumPath "." className reference ++ "(", (dialect scope).expr size,
      encoding.getD defaultEncoding, ")", rfl⟩

theorem isSizedText_iff {scope : Scope} {type : TypeRef} {size : Option Expr} :
    isSizedText scope type size = true ↔ scope.primitive? type = some .str ∧ size.isSome := by
  simp [isSizedText, and_comm]

section

variable {scope : Scope} {field : Field}

theorem kept_classTemplate (scope : Scope) : (classTemplate scope).kept =
    (scope.format.fields.flatMap fun field => (fieldTemplate scope field).kept) ++
      (scope.format.instances.filterMap Instance.rule?).map fun rule =>
        ⟨none, scope.ruleRead rule⟩ := by
  have member : ∀ inst : Instance, (instanceTemplate scope inst).kept =
      inst.rule?.toList.map fun rule => ⟨none, scope.ruleRead rule⟩ :=
    Target.kept_instanceTemplate .lua scope
  simp only [classTemplate, Template.kept_append, Template.kept_plain, Template.kept_block,
    Template.kept_cons, Template.kept?_line, Template.kept_flatMap, member, List.append_nil,
    List.nil_append, Option.toList_none]
  rw [List.filterMap_eq_flatMap_toList, List.map_flatMap]

/-- A class that calls the decoder declares text of a given size, or has a switch that reads it. -/
theorem needsDecoder_or_switches (supported : scope.IsSupported)
    (called : ∃ kept ∈ (classTemplate scope).kept, kept.read.isSizedText = true) :
    needsDecoder scope = true ∨ ∃ field ∈ scope.format.fields, scope.SwitchesToText .lua field := by
  obtain ⟨kept, member, sized⟩ := called
  rw [kept_classTemplate] at member
  unfold needsDecoder
  rw [Bool.or_eq_true, List.any_eq_true, List.any_eq_true]
  rcases List.mem_append.mp member with read | read
  · obtain ⟨field, listed, inside⟩ := List.mem_flatMap.mp read
    rcases (exists_sizedText_iff .lua (supported.fields field listed)).mp ⟨kept, inside, sized⟩ with
      ⟨-, own⟩ | switches
    · exact .inl (.inl ⟨field, listed, isSizedText_iff.mpr own⟩)
    · exact .inr ⟨field, listed, switches⟩
  · obtain ⟨rule, listed, rfl⟩ := List.mem_map.mp read
    have own := isSizedText_iff.mpr ((Scope.isSizedText_ruleRead rule).mp sized)
    exact .inl (.inr ⟨rule, listed, own⟩)

theorem called_of_switches (supported : scope.IsSupported) (listed : field ∈ scope.format.fields)
    (switches : scope.SwitchesToText .lua field) :
    ∃ kept ∈ (classTemplate scope).kept, kept.read.isSizedText = true := by
  obtain ⟨kept, inside, sized⟩ :=
    (exists_sizedText_iff .lua (supported.fields field listed)).mpr (.inr switches)
  refine ⟨kept, ?_, sized⟩
  rw [kept_classTemplate]
  exact List.mem_append_left _ (List.mem_flatMap.mpr ⟨field, listed, inside⟩)

end

end Target.Lua

namespace Module

/-- Some class calls the decoder for a field, in a case of a switch or not, or for an instance. -/
def CallsDecoder (module : Module) : Prop :=
  ∃ scope ∈ module.emitted, ∃ kept ∈ (Target.Lua.classTemplate scope).kept,
    kept.read.isSizedText = true

/-- A file of the `lua` targets loads the libraries it needs in lines of their own, and then has the
code of its classes. It loads what tables of enums are made with if it has such a table. It loads
the decoder if it calls it, with one exception: where switches call it, some scope has to declare
text of a given size besides. -/
theorem decoder_loaded_iff {module : Module} (supported : module.unsupported? = none)
    {target : Target} (isLua : target = .lua ∨ target = .wiresharkLua) (package : Option String) :
    ((target.artifacts package module).map Artifact.content =
      [Target.Lua.opening.render "  " ++
        String.join ((Target.Lua.requires module).map (· ++ "\n")) ++
        Code.render "  " ((module.emitted.flatMap fun scope =>
          (Target.Lua.classTemplate scope).code (Target.Lua.dialect scope)) ++
            Target.Lua.closing target module)]) ∧
    (∀ scope : Scope, ∀ kept : Kept, kept.read.isSizedText = true →
      ∃ before size encoding after : String, kept.text (Target.Lua.dialect scope) = before ++
        s!"str_decode.decode(self._io:read_bytes({size}), \"{encoding}\")" ++ after) ∧
    ((module.CallsDecoder → Target.Lua.decoderLine ∈ Target.Lua.requires module) ↔
      ((∃ scope ∈ module.emitted, ∃ field ∈ scope.format.fields, scope.SwitchesToText .lua field) →
        ∃ scope ∈ module.scopes, Target.Lua.needsDecoder scope = true)) ∧
    ∀ scope ∈ module.emitted, scope.format.enums ≠ [] →
      Target.Lua.enumLine ∈ Target.Lua.requires module := by
  have isSupported : ∀ scope ∈ module.emitted, scope.IsSupported := fun scope met =>
    (unsupported_eq_none_iff module).mp supported scope (mem_scopes_of_emitted met)
  refine ⟨?_, fun scope kept => Target.Lua.text_of_isSizedText, ?_,
    fun scope met => Target.Lua.enumLine_mem (mem_scopes_of_emitted met)⟩
  · rw [← Code.render_lines_between "  " rfl, ← List.append_assoc, ← Target.Lua.file_eq]
    exact Target.Lua.contents_artifacts isLua package module
  · rw [Target.Lua.decoderLine_mem_iff]
    constructor
    · rintro loaded ⟨scope, met, field, listed, switches⟩
      have called := Target.Lua.called_of_switches (isSupported scope met) listed switches
      exact loaded ⟨scope, met, called⟩
    · rintro declared ⟨scope, met, called⟩
      rcases Target.Lua.needsDecoder_or_switches (isSupported scope met) called with own | switches
      · exact ⟨scope, mem_scopes_of_emitted met, own⟩
      · exact declared ⟨scope, met, switches⟩

/-- A switch that reads text, beside a field that is text. -/
theorem decoder_loaded_iff_switch :
    let body : Field :=
      { id := "body", type := .primitive .u1, size := some (.int 4), switchOn := some (.name "tag"),
        cases := [⟨some (.int 1), .primitive .str⟩, ⟨none, .primitive .bytes⟩] }
    let root : Format :=
      { name := "top", order := .little,
        fields := [{ id := "tag", type := .primitive .u1 }, body,
          { id := "tail", type := .primitive .str, size := some (.int 2) }] }
    let module : Module := { root, nested := [] }
    module.unsupported? = none ∧ module.CallsDecoder ∧
      Target.Lua.decoderLine ∈ Target.Lua.requires module := by
  intro body root module
  have supported : module.unsupported? = none := by decide +kernel
  have declared : Target.Lua.needsDecoder module.rootScope = true := by decide +kernel
  have called : module.CallsDecoder :=
    ⟨module.rootScope, List.mem_cons_self, by decide +kernel⟩
  refine ⟨supported, called, ?_⟩
  exact (decoder_loaded_iff supported (.inl rfl) none).2.2.1.mpr
    (fun _ => ⟨module.rootScope, List.mem_cons_self, declared⟩) called

/-- A valid and supported format whose reader calls the decoder and does not load it. -/
theorem decoder_not_loaded :
    let body : Field :=
      { id := "body", type := .primitive .u1, size := some (.int 4), switchOn := some (.name "tag"),
        cases := [⟨some (.int 1), .primitive .str⟩] }
    let root : Format :=
      { name := "top", order := .little,
        fields := [{ id := "tag", type := .primitive .u1 }, body] }
    root.violation? = none ∧ ∃ module, ofFormat root = .ok module ∧ module.unsupported? = none ∧
      .line "self.body = str_decode.decode(self._io:read_bytes(4), \"UTF-8\")" ∈
        Target.Lua.fieldRead module.rootScope body ∧
      Target.Lua.requires module = [] := by
  intro body root
  refine ⟨by decide, { root, nested := [] }, rfl, by decide +kernel, ?_, ?_⟩
  · decide +kernel
  · decide +kernel

end Module

end FormatCompiler
