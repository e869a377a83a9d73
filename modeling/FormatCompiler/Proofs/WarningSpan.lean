import FormatCompiler.Compilation.Basic
import FormatCompiler.Proofs.ImportLoading
import FormatCompiler.Proofs.ScopeTable
import FormatCompiler.Proofs.SizelessText
import FormatCompiler.Proofs.Utf8
import FormatCompiler.Proofs.WrittenRow

/-!
Where warnings point. A warning about text without a size shows the first line of the listing that
starts with the keyword and the name. That is the row which declares the text if no row of the same
kind and name is in front of it. A field of a nested scope has no row, so its warning shows one that
belongs to another field or none.
-/

namespace FormatCompiler

set_option autoImplicit false

open Listing (Holder)

namespace Sizeless

/-- The first line that starts like the row of a text. -/
def firstLine? (sizeless : Sizeless) (lines : List (List Char)) : Option Nat :=
  lines.findIdx? sizeless.rowStart.isPrefixOf

theorem findRow_eq (sizeless : Sizeless) (number : Nat) (lines : List (List Char)) :
    sizeless.findRow? number lines = (sizeless.firstLine? lines).bind fun index =>
      lines[index]?.map fun text => (number + index, text) := by
  induction lines generalizing number with
  | nil => rfl
  | cons text rest ih =>
    rw [findRow?, firstLine?, List.findIdx?_cons]
    split
    · rfl
    · rw [ih, firstLine?]
      cases rest.findIdx? sizeless.rowStart.isPrefixOf with
      | none => rfl
      | some index => simp [Nat.add_assoc, Nat.add_comm 1]

/-- A line that starts so is shown, with its number and what it starts with. -/
theorem span_eq (sizeless : Sizeless) (file : String) (content : List Char) :
    sizeless.span? (some (file, content)) =
      (sizeless.firstLine? (Text.lines content)).bind fun index =>
        (Text.lines content)[index]?.map fun text =>
          ⟨file, index + 1, 0, Text.Utf8.size sizeless.rowStart, String.ofList text⟩ := by
  change (sizeless.findRow? 1 (Text.lines content)).bind _ = _
  rw [findRow_eq]
  cases found : sizeless.firstLine? (Text.lines content) with
  | none => rfl
  | some index =>
    obtain ⟨inside, starts, -⟩ := List.findIdx?_eq_some_iff_getElem.mp found
    obtain ⟨rest, whole⟩ := List.isPrefixOf_iff_prefix.mp starts
    simp only [Option.bind_some, List.getElem?_eq_getElem inside, Option.map_some, ← whole]
    rw [Span.ofLine, if_neg (by omega), if_neg, Nat.add_comm]
    · rfl
    · rw [Text.Utf8.size_append]
      omega

theorem span_eq_some_iff {sizeless : Sizeless} {file : String} {content : List Char} {span : Span} :
    sizeless.span? (some (file, content)) = some span ↔
      ∃ index text, sizeless.firstLine? (Text.lines content) = some index ∧
        (Text.lines content)[index]? = some text ∧
        span = ⟨file, index + 1, 0, Text.Utf8.size sizeless.rowStart, String.ofList text⟩ := by
  simp only [span_eq, Option.bind_eq_some_iff, Option.map_eq_some_iff, exists_and_left]
  simp only [eq_comm]

theorem exists_line {sizeless : Sizeless} {lines : List (List Char)} {index : Nat}
    (first : sizeless.firstLine? lines = some index) :
    ∃ text, lines[index]? = some text ∧ sizeless.rowStart <+: text := by
  obtain ⟨inside, starts, -⟩ := List.findIdx?_eq_some_iff_getElem.mp first
  exact ⟨_, List.getElem?_eq_getElem inside, List.isPrefixOf_iff_prefix.mp starts⟩

end Sizeless

/-! ### Warnings -/

/-- A text without a size, with the scope that has it and its place among the fields or instances
there. -/
structure Warning where
  scope : Scope
  holder : Holder
  place : Nat
  id : String

namespace Warning

def sizeless (warning : Warning) : Sizeless :=
  ⟨warning.holder.keyword, warning.id⟩

def diagnostic (warning : Warning) (source : Option (String × List Char)) : Diagnostic :=
  warning.sizeless.diagnostic warning.scope.fullName source

/-- The index of the row that declares the text, among the lines of the listing of a format. Fields
and instances of nested scopes have no rows. -/
def row? (warning : Warning) (lines : List (List Char)) (own : Format) : Option Nat :=
  if warning.scope.isRoot then some (warning.holder.start lines own + warning.place) else none

/-- If a row is shown, it is the one that declares the text. -/
def IsPlaced (warning : Warning) (path : String) (text : List Char) (own : Format) : Prop :=
  ∀ span, (warning.diagnostic (some (path, text))).span = some span →
    span.file = path ∧ (warning.row? (Text.lines text) own).map (· + 1) = some span.line

theorem rowStart_sizeless (warning : Warning) :
    warning.sizeless.rowStart = warning.holder.rowStart warning.id := by
  simp [sizeless, Sizeless.rowStart, Holder.rowStart]

/-- In a written listing the first row of a name that needs no backslash starts so. -/
theorem firstLine_write {written own : Format} {warning : Warning}
    (found : Listing.read (Listing.write written) = .ok own)
    (verbatim : Text.IsVerbatim warning.id.toList) :
    warning.sizeless.firstLine? (Text.lines (Listing.write written)) =
      ((warning.holder.ids own).idxOf? warning.id).map
        (warning.holder.start (Text.lines (Listing.write written)) own + ·) := by
  rw [Sizeless.firstLine?, rowStart_sizeless, Listing.findIdx_write found verbatim]

theorem row_eq_iff {warning : Warning} {lines : List (List Char)} {own : Format} {place : Nat} :
    warning.row? lines own = some (warning.holder.start lines own + place) ↔
      warning.scope.isRoot = true ∧ warning.place = place := by
  rw [row?]
  split
  · next isRoot => simp [isRoot]
  · next nested => simp [nested]

theorem isPlaced_iff {warning : Warning} {path : String} {text : List Char} {own : Format} :
    warning.IsPlaced path text own ↔
      ∀ index, warning.sizeless.firstLine? (Text.lines text) = some index →
        warning.row? (Text.lines text) own = some index := by
  constructor
  · intro placed index first
    obtain ⟨line, listed, -⟩ := Sizeless.exists_line first
    obtain ⟨-, same⟩ := placed _ (Sizeless.span_eq_some_iff.mpr ⟨index, line, first, listed, rfl⟩)
    obtain ⟨row, declared, equal⟩ := Option.map_eq_some_iff.mp same
    rw [declared, Nat.succ.inj equal]
  · intro same span shown
    obtain ⟨index, line, first, -, rfl⟩ := Sizeless.span_eq_some_iff.mp shown
    exact ⟨rfl, by rw [same index first, Option.map_some]⟩

end Warning

namespace Scope

/-- The texts without a size in a scope. -/
def warnings (scope : Scope) : List Warning :=
  (scope.format.fields.zipIdx.filterMap fun item =>
    (scope.sizelessField? item.1).map fun _ => ⟨scope, .field, item.2, item.1.id⟩) ++
  scope.format.instances.zipIdx.filterMap fun item =>
    (scope.sizelessInstance? item.1).map fun _ => ⟨scope, .inst, item.2, item.1.id⟩

theorem sizeless_eq_warnings (scope : Scope) :
    scope.sizeless = scope.warnings.map Warning.sizeless := by
  have numbered : ∀ {α β : Type} (items : List α) (found? : α → Option β),
      items.filterMap found? = items.zipIdx.filterMap fun item => found? item.1 := by
    intro α β items found?
    conv => lhs; rw [← List.zipIdx_map_fst 0 items, List.filterMap_map]
    rfl
  rw [sizeless, warnings, List.map_append, List.map_filterMap, List.map_filterMap,
    numbered scope.format.fields, numbered scope.format.instances]
  congr 1
  · refine List.filterMap_congr fun item _ => ?_
    cases found : scope.sizelessField? item.1 with
    | none => rfl
    | some sizeless =>
      rw [sizelessField_eq found]
      rfl
  · refine List.filterMap_congr fun item _ => ?_
    cases found : scope.sizelessInstance? item.1 with
    | none => rfl
    | some sizeless =>
      rw [sizelessInstance_eq found]
      rfl

theorem mem_warnings {scope : Scope} {warning : Warning} (member : warning ∈ scope.warnings) :
    warning.scope = scope ∧
      (warning.holder.ids scope.format)[warning.place]? = some warning.id := by
  rcases List.mem_append.mp member with listed | listed
  · obtain ⟨⟨field, place⟩, numbered, found⟩ := List.mem_filterMap.mp listed
    obtain ⟨-, -, rfl⟩ := Option.map_eq_some_iff.mp found
    have declared := List.mk_mem_zipIdx_iff_getElem?.mp numbered
    exact ⟨rfl, by simp [Holder.ids, declared]⟩
  · obtain ⟨⟨inst, place⟩, numbered, found⟩ := List.mem_filterMap.mp listed
    obtain ⟨-, -, rfl⟩ := Option.map_eq_some_iff.mp found
    have declared := List.mk_mem_zipIdx_iff_getElem?.mp numbered
    exact ⟨rfl, by simp [Holder.ids, declared]⟩

end Scope

namespace Module

/-- The texts without a size in all scopes of a module. -/
def warnings (module : Module) : List Warning :=
  module.scopes.flatMap Scope.warnings

theorem lint_eq_warnings (module : Module) (source : Option (String × List Char)) :
    module.lint source = module.warnings.map fun warning => warning.diagnostic source := by
  rw [lint, warnings, List.map_flatMap]
  refine List.flatMap_congr fun scope _ => ?_
  rw [scope.sizeless_eq_warnings, List.map_map]
  refine List.map_congr_left fun warning member => ?_
  rw [Function.comp_apply, Warning.diagnostic, (Scope.mem_warnings member).1]

end Module

/-! ### Loaded listings -/

/-- What is prepared was read from the text of the file, which has all fields and instances. -/
theorem exists_text_of_prepare {disk : Disk} {path : String} {options : Options} {format : Format}
    {diagnostics : List Diagnostic}
    (done : prepare disk path options = .ok (format, diagnostics)) :
    ∃ module text own, Module.ofFormat format = .ok module ∧ disk.read path = .ok text ∧
      Listing.read text = .ok own ∧ own.fields = format.fields ∧
      own.instances = format.instances ∧ diagnostics = module.lint (some (path, text)) := by
  unfold prepare at done
  split at done
  · cases done
  split at done
  · cases done
  split at done
  · cases done
  next loaded =>
  split at done
  · cases done
  next module built =>
  cases done
  obtain ⟨place, files, located, found, merged, -⟩ := Imports.load_eq_ok_iff.mp loaded
  obtain ⟨-, rfl⟩ := (Imports.merge_eq_ok_iff found).mp merged
  have root := Imports.readAt_root found
  obtain ⟨text, opened, parsed⟩ := Except.bind_eq_ok_iff.mp root
  have read : disk.read path = .ok text := by
    rw [Disk.read, located]
    exact Except.mapError_eq_ok_iff.mp opened
  have own := Except.mapError_eq_ok_iff.mp parsed
  refine ⟨module, text, files.root.format, built, read, own, rfl, rfl, ?_⟩
  -- the text that is searched for rows is the one the listing was read from
  rw [read]
  rfl

theorem Module.format_of_isRoot {module : Module} {scope : Scope} (member : scope ∈ module.scopes)
    (isRoot : scope.isRoot = true) : scope.format = module.root := by
  rcases List.mem_cons.mp member with rfl | member
  · rfl
  · obtain ⟨path, -, found⟩ := List.mem_filterMap.mp member
    obtain ⟨format, stored, found⟩ := Option.bind_eq_some_iff.mp found
    split at found
    · cases found
      rfl
    · next inner =>
      cases found
      exact absurd isRoot inner

/-- What is shown with a warning. The rows of all fields and instances of the file are known. A
warning shows a row that is not its own unless the first line that starts like its row, if there is
one, is its row; a line in front of the end mark that starts so is a row of the same kind, and
declares a name that starts with the name of the warning if no backslash is needed for that. For a
file that was written as listings are, and such a name, the row is right exactly if the first that
is called so in the file, if there is one, is what the warning is about. -/
theorem warnings_placed_iff {disk : Disk} {path : String} {options : Options} {format : Format}
    {diagnostics : List Diagnostic}
    (done : prepare disk path options = .ok (format, diagnostics)) :
    ∃ module text own, Module.ofFormat format = .ok module ∧ disk.read path = .ok text ∧
      Listing.read text = .ok own ∧
      (∀ place field, format.fields[place]? = some field → ∃ line,
        (Text.lines text)[Listing.fieldsAt (Text.lines text) own + place]? = some line ∧
          Listing.Says Listing.WordReader.field line field) ∧
      (∀ place inst, format.instances[place]? = some inst → ∃ line,
        (Text.lines text)[Listing.instancesAt (Text.lines text) own + place]? = some line ∧
          Listing.Says Listing.WordReader.instanceDecl line inst) ∧
      diagnostics = module.warnings.map (fun warning => warning.diagnostic (some (path, text))) ∧
      ∀ warning ∈ module.warnings,
        (warning.scope.isRoot = true → warning.scope.format = format) ∧
        (warning.IsPlaced path text own ↔
          ∀ index, warning.sizeless.firstLine? (Text.lines text) = some index →
            warning.row? (Text.lines text) own = some index) ∧
        (∀ index, warning.sizeless.firstLine? (Text.lines text) = some index →
          index ≤ Listing.endAt (Text.lines text) own →
          ∃ place id, index = warning.holder.start (Text.lines text) own + place ∧
            (warning.holder.ids format)[place]? = some id ∧
            (Text.IsVerbatim warning.id.toList → warning.id.toList <+: id.toList)) ∧
        (∀ written, text = Listing.write written → Text.IsVerbatim warning.id.toList →
          (warning.IsPlaced path text own ↔
            ∀ place, (warning.holder.ids format).idxOf? warning.id = some place →
              warning.scope.isRoot = true ∧ warning.place = place)) := by
  obtain ⟨module, text, own, built, opened, found, fields, instances, rfl⟩ :=
    exists_text_of_prepare done
  obtain ⟨layout⟩ := Listing.exists_layout found
  have ids : ∀ holder : Holder, holder.ids format = holder.ids own := by
    intro holder
    cases holder <;> simp [Holder.ids, fields, instances]
  refine ⟨module, text, own, built, opened, found, ?_, ?_, module.lint_eq_warnings _, ?_⟩
  · intro place field declared
    exact layout.field_at (fields ▸ declared)
  · intro place inst declared
    exact layout.instance_at (instances ▸ declared)
  · intro warning member
    obtain ⟨scope, inModule, inScope⟩ := List.mem_flatMap.mp member
    obtain ⟨rfl, -⟩ := Scope.mem_warnings inScope
    rw [ids]
    refine ⟨?_, Warning.isPlaced_iff, ?_, ?_⟩
    · intro isRoot
      rw [Module.format_of_isRoot inModule isRoot, (Module.ofFormat_eq_ok.mp built).1]
    · intro index first early
      obtain ⟨line, listed, starts⟩ := Sizeless.exists_line first
      rw [Warning.rowStart_sizeless] at starts
      rcases layout.of_opens listed (Holder.opens_of_rowStart starts) with
        ⟨place, id, same, declared, declares⟩ | behind
      · exact ⟨place, id, same, declared,
          fun verbatim => Holder.prefix_of_declares verbatim starts declares⟩
      · omega
    · rintro written rfl verbatim
      rw [Warning.isPlaced_iff, Warning.firstLine_write found verbatim]
      simp only [Option.map_eq_some_iff, forall_exists_index, and_imp, forall_apply_eq_imp_iff₂,
        Warning.row_eq_iff]

section Single

variable (text : List Char)

theorem readAt_single : (Disk.holding [("top", text)]).readAt ["top"] = .ok text := by
  change (Text.Utf8.decode (Text.Utf8.encode text)).mapError _ = _
  rw [Text.Utf8.decode_encode]
  rfl

theorem locate_single : (Disk.holding [("top", text)]).locate "top" = .ok ["top"] := rfl

theorem read_single : (Disk.holding [("top", text)]).read "top" = .ok text := by
  rw [Disk.read, locate_single]
  exact readAt_single text

end Single

theorem prepare_single {text : List Char} {format : Format} {module : Module}
    (found : Listing.read text = .ok format) (alone : format.imports = [])
    (valid : format.violation? = none) (built : Module.ofFormat format = .ok module) :
    prepare (.holding [("top", text)]) "top" {} =
      .ok (format, module.lint (some ("top", text))) := by
  have read : Imports.readAt (.holding [("top", text)]) ["top"] = .ok format := by
    rw [Imports.readAt, readAt_single]
    exact Except.mapError_eq_ok_iff.mpr found
  have loaded : Imports.load (.holding [("top", text)]) [] "top" = .ok format :=
    Imports.load_alone (locate_single text) read alone valid
  have options : unknownTarget? ({} : Options).targets = none := by decide
  unfold prepare
  rw [if_neg (by decide), options]
  simp only [loaded, built, read_single]
  rfl

/-- The only text of a file is shown at its row. -/
theorem warnings_placed_iff_own :
    let root : Format :=
      { name := "top", order := .little, fields := [{ id := "x", type := .primitive .str }] }
    let disk := Disk.holding [("top", Listing.write root)]
    ∃ diagnostics, prepare disk "top" {} = .ok (root, diagnostics) ∧
      ∃ warning : Warning, ∃ span, warning.id = "x" ∧
        diagnostics = [warning.diagnostic (some ("top", Listing.write root))] ∧
        (warning.diagnostic (some ("top", Listing.write root))).span = some span ∧
        warning.IsPlaced "top" (Listing.write root) root := by
  intro root disk
  have found : Listing.read (Listing.write root) = .ok root :=
    Listing.read_of_listable ⟨by decide, by decide⟩
  let module : Module := ⟨root, []⟩
  let warning : Warning := ⟨module.rootScope, .field, 0, "x"⟩
  have warnings : module.warnings = [warning] := rfl
  have ready := prepare_single found rfl (by decide) (rfl : Module.ofFormat root = .ok module)
  have first : warning.sizeless.firstLine? (Text.lines (Listing.write root)) =
      some (Listing.fieldsAt (Text.lines (Listing.write root)) root + 0) :=
    Warning.firstLine_write found (by decide)
  obtain ⟨line, listed, -⟩ := Sizeless.exists_line first
  obtain ⟨other, text, own, same, opened, read, -, -, diagnostics, placed⟩ :=
    warnings_placed_iff ready
  cases same
  cases (read_single _).symm.trans opened
  cases found.symm.trans read
  rw [warnings] at diagnostics placed
  obtain ⟨-, -, -, written⟩ := placed warning List.mem_cons_self
  refine ⟨_, ready, warning, _, rfl, diagnostics,
    Sizeless.span_eq_some_iff.mpr ⟨_, line, first, listed, rfl⟩, ?_⟩
  refine (written root rfl (by decide)).mpr fun place declared => ⟨rfl, ?_⟩
  exact Option.some.inj declared

/-- A field of a nested scope is shown at the row of the field of the root that is called so. -/
theorem nested_warning_misplaced :
    let inner : Format :=
      { name := "inner", order := .little, fields := [{ id := "x", type := .primitive .str }] }
    let number : Field := { id := "x", type := .primitive .u1 }
    let root : Format :=
      { name := "top", order := .little, types := [⟨"sub", .embed inner⟩], fields := [number] }
    ∃ diagnostic span line,
      prepare (.holding [("top", Listing.write root)]) "top" {} = .ok (root, [diagnostic]) ∧
      diagnostic.message = "str attr `x` of `top::sub` has no size" ∧
      diagnostic.span = some span ∧ span.text = String.ofList line ∧
      (Text.lines (Listing.write root))[span.line - 1]? = some line ∧
      Listing.Says Listing.WordReader.field line number := by
  intro inner number root
  have innerListable : inner.IsListable := ⟨by decide, by decide⟩
  have listable : root.IsListable := by
    have types : ∀ decl ∈ root.types, ∀ string ∈ decl.strings, OneLine string :=
      List.forall_mem_singleton.mpr
        (List.forall_mem_cons.mpr ⟨by decide, Listing.oneLine_embed inner⟩)
    refine root.isListable_iff.mpr ⟨⟨by decide, by decide, types, by decide, by decide, by decide,
      by decide⟩, by decide, by decide, by decide, by decide, by decide, by decide, by decide,
      by decide⟩
  have found : Listing.read (Listing.write root) = .ok root := Listing.read_of_listable listable
  have valid : root.violation? = none := by
    refine Format.violation_of_carriedTypes (by decide) (by decide) ?_ ?_
    · exact List.forall_mem_singleton.mpr ⟨by decide, inner, rfl⟩
    · exact List.forall_mem_singleton.mpr rfl
  let module : Module := ⟨root, [("sub", inner)]⟩
  have built : Module.ofFormat root = .ok module := by
    have path : Module.pathOf root "sub" = "sub" := by decide
    refine Module.ofFormat_eq_ok.mpr ⟨rfl, ?_⟩
    change Module.addScopes root [] [{ name := "sub", type := .embed inner }] = _
    rw [Module.addScopes_embed root [] "sub" innerListable [], path]
    rfl
  let scope : Scope := ⟨module, "sub", inner, .ofTypes (root.types ++ inner.types)⟩
  let warning : Warning := ⟨scope, .field, 0, "x"⟩
  have warnings : module.warnings = [warning] := rfl
  have ready := prepare_single found rfl valid built
  rw [module.lint_eq_warnings, warnings, List.map_singleton] at ready
  have first : warning.sizeless.firstLine? (Text.lines (Listing.write root)) =
      some (Listing.fieldsAt (Text.lines (Listing.write root)) root + 0) :=
    Warning.firstLine_write found (by decide)
  obtain ⟨layout⟩ := Listing.exists_layout found
  have declared : root.fields[0]? = some number := rfl
  obtain ⟨line, listed, said⟩ := layout.field_at declared
  refine ⟨_, _, line, ready, by decide,
    Sizeless.span_eq_some_iff.mpr ⟨_, line, first, listed, rfl⟩, rfl, listed, said⟩

end FormatCompiler
