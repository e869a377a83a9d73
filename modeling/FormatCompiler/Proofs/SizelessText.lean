import FormatCompiler.Module.Lint
import FormatCompiler.Proofs.KeptReads

/-!
Text without a size. A reader takes it to be empty, and a warning is given for the field or the
instance. The warning goes by the primitive that a field is stored as, while a switch reads each of
its cases as its own type, so the two part where bytes stand before text among the cases.
-/

namespace FormatCompiler

set_option autoImplicit false

/-- Text without a size, which every target words as the empty text. -/
def Read.isEmptyText : Read → Bool
  | .text none _ => true
  | _ => false

theorem Read.isEmptyText_ofPrimitive {type : Primitive} {order : ByteOrder} {size : Option Expr}
    {encoding : Option String} {transform : Option Transform} :
    (Read.ofPrimitive type order size encoding transform).isEmptyText = true ↔
      type = .str ∧ size = none := by
  cases type <;> cases size <;> simp [ofPrimitive, isEmptyText]

/-- Whether some target keeps empty text for a field. -/
def Scope.EmitsEmptyText (scope : Scope) (field : Field) : Prop :=
  ∃ target : Target, ∃ kept ∈ (target.fieldTemplate scope field).kept, kept.read.isEmptyText = true

theorem Field.IsSupported.transform_of_switch {scope : Scope} {field : Field}
    (supported : field.IsSupported scope) (switched : field.switchOn.isSome) :
    field.transform = none := by
  obtain ⟨type, -, -, changed, -⟩ := supported.stored (Scope.fieldStructure_switch switched)
  by_contra present
  have plain := (changed (Option.isSome_iff_ne_none.mpr present)).2
  rw [plain] at switched
  cases switched

namespace Primitive

/-- Text and bytes, which are wider than every number. -/
def isWide (type : Primitive) : Bool :=
  type == .str || type == .bytes

theorem isWide_iff {type : Primitive} : type.isWide = true ↔ type = .str ∨ type = .bytes := by
  simp [isWide]

theorem wider_cases (first second : Primitive) :
    if first.isWide then Scope.wider first second = first
    else if second.isWide then Scope.wider first second = second
    else (Scope.wider first second).isWide = false := by
  cases first <;> cases second <;> decide

/-- Where some type is wide, the widest is the first that is. -/
theorem find_isWide (first : Primitive) (types : List Primitive) :
    (first :: types).find? isWide = (some (types.foldl Scope.wider first)).filter isWide := by
  induction types generalizing first with
  | nil => cases wide : first.isWide <;> simp [Option.filter, wide]
  | cons second rest ih =>
    have step := wider_cases first second
    -- the fold goes on from the wider of the first two types, which the rest is searched behind
    rw [List.foldl_cons, ← ih]
    cases wide : first.isWide with
    | true =>
      rw [wide, if_pos rfl] at step
      simp [step, wide]
    | false =>
      rw [wide, if_neg Bool.false_ne_true] at step
      rw [List.find?_cons_of_neg (by simp [wide])]
      cases next : second.isWide with
      | true =>
        rw [next, if_pos rfl] at step
        rw [step]
      | false =>
        rw [next, if_neg Bool.false_ne_true] at step
        simp [step, next]

end Primitive

namespace Scope

/-- The first of the types of some cases that is text or bytes. -/
def firstWide? (scope : Scope) (cases : List SwitchCase) : Option Primitive :=
  (cases.filterMap fun case => scope.primitive? case.type).find? Primitive.isWide

theorem mapM_primitive {scope : Scope} {cases : List SwitchCase}
    (found : ∀ case ∈ cases, ∃ type, scope.primitive? case.type = some type) :
    cases.mapM (fun case => scope.primitive? case.type) =
      some (cases.filterMap fun case => scope.primitive? case.type) := by
  induction cases with
  | nil => rfl
  | cons case rest ih =>
    obtain ⟨⟨type, here⟩, later⟩ := List.forall_mem_cons.mp found
    simp [List.mapM_cons, here, ih later]

theorem filter_widestCase {scope : Scope} {cases : List SwitchCase} (inhabited : cases ≠ [])
    (found : ∀ case ∈ cases, ∃ type, scope.primitive? case.type = some type) :
    (scope.widestCase? cases).filter Primitive.isWide = scope.firstWide? cases := by
  cases cases with
  | nil => exact absurd rfl inhabited
  | cons case rest =>
    obtain ⟨⟨type, here⟩, later⟩ := List.forall_mem_cons.mp found
    have widest : scope.widestCase? (case :: rest) =
        some ((rest.filterMap fun case => scope.primitive? case.type).foldl wider type) := by
      simp [widestCase?, mapM_primitive later, here]
    rw [widest, ← Primitive.find_isWide, firstWide?, List.filterMap_cons, here]

theorem primitive_eq_str_iff {scope : Scope} {type : TypeRef} :
    scope.primitive type = .str ↔ scope.primitive? type = some .str := by
  unfold Scope.primitive
  cases scope.primitive? type <;> simp

theorem sizelessField_isSome_iff (scope : Scope) (field : Field) :
    (scope.sizelessField? field).isSome ↔ field.size = none ∧
      scope.fieldStructure? field = none ∧ scope.fieldPrimitive? field = some .str := by
  unfold sizelessField?
  split
  · next sizeless =>
    simpa [and_assoc] using sizeless
  · next sized =>
    simpa [and_assoc] using sized

section

variable {scope : Scope} {field : Field}

/-- A switch with cases is warned about just when it has no size and the first of its cases that is
text or bytes is text. -/
theorem sizelessField_switch_iff (switched : field.switchOn.isSome) (inhabited : field.cases ≠ [])
    (found : ∀ case ∈ field.cases, ∃ type, scope.primitive? case.type = some type) :
    (scope.sizelessField? field).isSome ↔
      field.size = none ∧ scope.firstWide? field.cases = some .str := by
  have stored : scope.fieldPrimitive? field = scope.widestCase? field.cases := by
    have present := Option.isSome_iff_ne_none.mp switched
    rw [fieldPrimitive?, if_neg (by simp [present, inhabited])]
  have text : scope.widestCase? field.cases = some .str ↔
      scope.firstWide? field.cases = some .str := by
    rw [← filter_widestCase inhabited found]
    cases scope.widestCase? field.cases with
    | none => rfl
    | some type => cases type <;> decide
  rw [sizelessField_isSome_iff, stored, text]
  simp [fieldStructure_switch switched]

theorem isEmptyText_primitiveRead (type : TypeRef) :
    (scope.primitiveRead field type).isEmptyText = true ↔
      field.size = none ∧ scope.primitive? type = some .str := by
  rw [primitiveRead, Read.isEmptyText_ofPrimitive, primitive_eq_str_iff, and_comm]

theorem isEmptyText_read (plain : field.switchOn = none) :
    (scope.read field field.type).isEmptyText = true ↔ field.size = none ∧
      scope.fieldStructure? field = none ∧ scope.fieldPrimitive? field = some .str := by
  have stored : scope.fieldPrimitive? field = scope.primitive? field.type := by
    simp [fieldPrimitive?, plain]
  rw [fieldStructure_plain plain, stored]
  cases found : scope.structure? field.type with
  | some type => simp [Scope.read, plain, found, Read.isEmptyText]
  | none =>
    have read : scope.read field field.type = scope.primitiveRead field field.type := by
      simp [Scope.read, plain, found]
    rw [read, isEmptyText_primitiveRead]
    simp

/-- Outside a switch a field is warned about just when empty text is kept for it. -/
theorem emitsEmptyText_plain (supported : field.IsSupported scope)
    (plain : field.switchOn = none) :
    scope.EmitsEmptyText field ↔ (scope.sizelessField? field).isSome := by
  have unswitched : field.switchOn.isSome → field.transform = none := by simp [plain]
  rw [sizelessField_isSome_iff, ← isEmptyText_read plain]
  constructor
  · rintro ⟨target, kept, member, empty⟩
    rw [target.kept_fieldTemplate unswitched, Target.kept] at member
    split at member
    · rw [List.mem_singleton.mp member] at empty
      cases empty
    · simp only [stored, plain, List.mem_singleton] at member
      rwa [member] at empty
  · intro empty
    -- only bytes are changed once read, so nothing stands in the way of the text
    have unchanged : field.transform = none := by
      obtain ⟨-, bare, text⟩ := (isEmptyText_read plain).mp empty
      obtain ⟨type, found, -, changed, -⟩ := supported.stored bare
      rw [text, Option.some.injEq] at found
      by_contra present
      have bytes := (changed (Option.isSome_iff_ne_none.mpr present)).1
      rw [← found] at bytes
      cases bytes
    refine ⟨.ruby, ⟨field.enumName, scope.read field field.type⟩, ?_, empty⟩
    rw [Target.kept_fieldTemplate unswitched, Target.kept, if_neg (by simp [unchanged])]
    simp [stored, plain]

/-- In a switch empty text is kept just when there is no size and some case is text. -/
theorem emitsEmptyText_switch (supported : field.IsSupported scope)
    (switched : field.switchOn.isSome) :
    scope.EmitsEmptyText field ↔ field.size = none ∧
      ∃ case ∈ field.cases, scope.primitive? case.type = some .str := by
  have unchanged := supported.transform_of_switch switched
  have kept : ∀ target : Target, (target.fieldTemplate scope field).kept =
      (target.readCases field).map fun case =>
        ⟨target.caseEnum field, scope.primitiveRead field case.type⟩ := by
    intro target
    obtain ⟨selector, switchOn⟩ := Option.isSome_iff_exists.mp switched
    rw [target.kept_fieldTemplate fun _ => unchanged, Target.kept, if_neg (by simp [unchanged])]
    simp only [stored, switchOn, read_case switched]
  constructor
  · rintro ⟨target, entry, member, empty⟩
    rw [kept] at member
    obtain ⟨case, read, rfl⟩ := List.mem_map.mp member
    obtain ⟨sizeless, text⟩ := (isEmptyText_primitiveRead _).mp empty
    exact ⟨sizeless, case, Target.mem_of_mem_readCases read, text⟩
  · rintro ⟨sizeless, case, member, text⟩
    refine ⟨.ruby, ⟨Target.ruby.caseEnum field, scope.primitiveRead field case.type⟩, ?_,
      (isEmptyText_primitiveRead _).mpr ⟨sizeless, text⟩⟩
    rw [kept]
    exact List.mem_map.mpr ⟨case, Target.mem_readCases_ruby member, rfl⟩

/-- The first of the cases that is text or bytes is text, unless bytes stand first. -/
theorem firstWide_eq_str_iff (cases : List SwitchCase) :
    scope.firstWide? cases = some .str ↔
      (∃ case ∈ cases, scope.primitive? case.type = some .str) ∧
        scope.firstWide? cases ≠ some .bytes := by
  have member : (∃ case ∈ cases, scope.primitive? case.type = some .str) ↔
      .str ∈ cases.filterMap fun case => scope.primitive? case.type := by
    rw [List.mem_filterMap]
  rw [member]
  constructor
  · intro first
    exact ⟨List.mem_of_find?_eq_some first, by rw [first]; decide⟩
  · rintro ⟨text, other⟩
    cases first : scope.firstWide? cases with
    | none => exact absurd rfl (List.find?_eq_none.mp first _ text)
    | some type =>
      have wide : type.isWide = true := List.find?_some first
      rcases Primitive.isWide_iff.mp wide with rfl | rfl
      · rfl
      · exact absurd first other

/-- A field is warned about just when empty text is kept for it, apart from two kinds of switches:
one whose first case of text or bytes is of bytes is not warned about, and one that has no cases is
if its own type is text. -/
theorem sizelessField_iff (supported : field.IsSupported scope) :
    (scope.sizelessField? field).isSome ↔
      scope.EmitsEmptyText field ∧
          ¬ (field.switchOn.isSome ∧ scope.firstWide? field.cases = some .bytes) ∨
        field.switchOn.isSome ∧ field.cases = [] ∧ field.size = none ∧
          scope.primitive? field.type = some .str := by
  cases switchOn : field.switchOn with
  | none => simp [emitsEmptyText_plain supported switchOn]
  | some selector =>
    have switched : field.switchOn.isSome := by rw [switchOn]; rfl
    rw [emitsEmptyText_switch supported switched]
    by_cases inhabited : field.cases = []
    · rw [sizelessField_isSome_iff, fieldStructure_switch switched]
      simp [inhabited, fieldPrimitive?]
    · have found := supported.cases (fieldStructure_switch switched)
      rw [sizelessField_switch_iff switched inhabited found, firstWide_eq_str_iff]
      simp [inhabited, and_assoc]

end

theorem structure_of_primitive {scope : Scope} {type : TypeRef} {found : Primitive}
    (primitive : scope.primitive? type = some found) : scope.structure? type = none := by
  unfold primitive? AliasTable.primitive? at primitive
  unfold structure?
  cases resolved : scope.aliases.resolve type with
  | primitive type => rfl
  | opaqueName name =>
    rw [resolved] at primitive
    cases primitive

/-- An instance that is read is warned about just when it is read as empty text. -/
theorem sizelessInstance_iff (scope : Scope) (id : String) (rule : ParseRule) :
    (scope.sizelessInstance? ⟨id, .parse rule⟩).isSome ↔
      (scope.ruleRead rule).isEmptyText = true := by
  have warned : (scope.sizelessInstance? ⟨id, .parse rule⟩).isSome ↔
      rule.size = none ∧ scope.primitive? rule.type = some .str := by
    simp [sizelessInstance?, Instance.rule?]
  rw [warned]
  unfold ruleRead
  cases found : scope.structure? rule.type with
  | some type =>
    refine iff_of_false ?_ Bool.false_ne_true
    rintro ⟨-, text⟩
    rw [structure_of_primitive text] at found
    cases found
  | none => rw [Read.isEmptyText_ofPrimitive, primitive_eq_str_iff, and_comm]

theorem sizelessField_eq {scope : Scope} {field : Field} {sizeless : Sizeless}
    (found : scope.sizelessField? field = some sizeless) : sizeless = ⟨"attr", field.id⟩ := by
  unfold sizelessField? at found
  split at found
  · exact (Option.some.inj found).symm
  · cases found

theorem sizelessInstance_eq {scope : Scope} {inst : Instance} {sizeless : Sizeless}
    (found : scope.sizelessInstance? inst = some sizeless) :
    sizeless = ⟨"instance", inst.id⟩ := by
  obtain ⟨rule, -, found⟩ := Option.bind_eq_some_iff.mp found
  split at found
  · exact (Option.some.inj found).symm
  · cases found

theorem sizeless_eq (scope : Scope) : scope.sizeless =
    ((scope.format.fields.filter fun field => (scope.sizelessField? field).isSome).map fun field =>
      ⟨"attr", field.id⟩) ++
    (scope.format.instances.filter fun inst => (scope.sizelessInstance? inst).isSome).map
      fun inst => ⟨"instance", inst.id⟩ := by
  have named : ∀ {α : Type} (find : α → Option Sizeless) (name : α → Sizeless),
      (∀ item found, find item = some found → found = name item) → ∀ items : List α,
        items.filterMap find = (items.filter fun item => (find item).isSome).map name := by
    intro α find name same items
    induction items with
    | nil => rfl
    | cons item rest ih =>
      cases here : find item with
      | none => simp [here, ih]
      | some found => simp [here, ih, same item found here]
  unfold sizeless
  congr 1
  · exact named _ _ (fun _ _ => sizelessField_eq) _
  · exact named _ _ (fun _ _ => sizelessInstance_eq) _

end Scope

namespace Module

/-- The warnings about a supported module: in the order of its scopes, those about fields and then
those about instances, each with the name of what it is about and of its scope. An instance that is
read is warned about just when it is read as empty text. So is a field, apart from two kinds of
switches. -/
theorem lint_iff_emitsEmptyText {module : Module} (supported : module.unsupported? = none)
    (source : Option (String × List Char)) :
    (module.lint source = module.scopes.flatMap fun scope =>
      ((scope.format.fields.filter fun field => (scope.sizelessField? field).isSome).map
        fun field => Sizeless.diagnostic ⟨"attr", field.id⟩ scope.fullName source) ++
      (scope.format.instances.filter fun inst => (scope.sizelessInstance? inst).isSome).map
        fun inst => Sizeless.diagnostic ⟨"instance", inst.id⟩ scope.fullName source) ∧
    ∀ scope ∈ module.scopes,
      (∀ field ∈ scope.format.fields,
        (∀ target : Target, target.fieldRead scope field =
          (target.fieldTemplate scope field).code (target.dialect scope)) ∧
        ((scope.sizelessField? field).isSome ↔
          scope.EmitsEmptyText field ∧
              ¬ (field.switchOn.isSome ∧ scope.firstWide? field.cases = some .bytes) ∨
            field.switchOn.isSome ∧ field.cases = [] ∧ field.size = none ∧
              scope.primitive? field.type = some .str)) ∧
      ∀ inst ∈ scope.format.instances, ∀ rule, inst.body = .parse rule → ∀ target : Target,
        target.instanceCode scope inst =
          (target.instanceTemplate scope inst).code (target.dialect scope) ∧
        ((scope.sizelessInstance? inst).isSome ↔
          ∃ kept ∈ (target.instanceTemplate scope inst).kept, kept.read.isEmptyText = true) := by
  constructor
  · simp [lint, Scope.sizeless_eq, Function.comp_def]
  · intro scope listed
    have isSupported := (unsupported_eq_none_iff module).mp supported scope listed
    refine ⟨fun field member => ⟨fun target => (target.code_fieldTemplate scope field).symm,
      Scope.sizelessField_iff (isSupported.fields field member)⟩, ?_⟩
    rintro ⟨id, body⟩ - rule rfl target
    refine ⟨(target.code_instanceTemplate scope _).symm, ?_⟩
    rw [Scope.sizelessInstance_iff, target.kept_instanceTemplate]
    simp [Instance.rule?]

/-- A switch whose first case is text, and bytes after it. -/
theorem lint_iff_emitsEmptyText_switch :
    let body : Field :=
      { id := "body", type := .primitive .u1, switchOn := some (.name "tag"),
        cases := [⟨some (.int 1), .named "line"⟩, ⟨none, .primitive .bytes⟩] }
    let root : Format :=
      { name := "top", order := .little, types := [⟨"line", .primitive .str⟩],
        fields := [{ id := "tag", type := .primitive .u1 }, body] }
    let module : Module := { root, nested := [] }
    module.unsupported? = none ∧ module.rootScope.EmitsEmptyText body := by
  intro body root module
  have supported : module.unsupported? = none := by decide +kernel
  have warned : (module.rootScope.sizelessField? body).isSome := by decide +kernel
  obtain ⟨-, scopes⟩ := lint_iff_emitsEmptyText supported none
  have fields := (scopes module.rootScope List.mem_cons_self).1
  have member : body ∈ root.fields := List.mem_cons_of_mem _ List.mem_cons_self
  rcases (fields body member).2.mp warned with emits | ⟨-, empty, -⟩
  · exact ⟨supported, emits.1⟩
  · cases empty

/-- A valid and supported format with a switch that keeps empty text, which nothing is said
about. -/
theorem lint_misses_empty_text :
    let body : Field :=
      { id := "body", type := .primitive .u1, switchOn := some (.name "tag"),
        cases := [⟨some (.int 1), .primitive .bytes⟩, ⟨some (.int 2), .primitive .str⟩] }
    let root : Format :=
      { name := "top", order := .little,
        fields := [{ id := "tag", type := .primitive .u1 }, body] }
    root.violation? = none ∧ ∃ module, ofFormat root = .ok module ∧ module.unsupported? = none ∧
      .line "self.body = u\"\"" ∈ Target.Python.fieldRead module.rootScope body ∧
      module.lint none = [] := by
  intro body root
  refine ⟨by decide, { root, nested := [] }, rfl, by decide +kernel, ?_, ?_⟩
  · decide +kernel
  · decide +kernel

end Module

end FormatCompiler
