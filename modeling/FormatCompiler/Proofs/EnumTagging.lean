import FormatCompiler.Proofs.KeptReads

/-!
Fields of an enum. What is kept of such a field is a number that was read, put into the words that
make it a value of the enum. Every target does so outside a switch. In the cases of a switch the
`cpp_stl` target keeps the bare number.
-/

namespace FormatCompiler

set_option autoImplicit false

/-- An enum, qualified by the class that declares it. -/
def Scope.enumPathOf (scope : Scope) (separator : String) (enumTitle : String → String)
    (owner : String) (decl : EnumDecl) : String :=
  scope.classPath separator owner ++ separator ++ enumTitle (Name.short decl.name)

theorem Scope.enumPath_eq {scope : Scope} {reference owner : String} {decl : EnumDecl}
    (found : scope.enumOwner? reference = some (owner, decl)) (separator : String)
    (enumTitle : String → String) :
    scope.enumPath separator enumTitle reference =
      scope.enumPathOf separator enumTitle owner decl := by
  simp only [enumPath, found, enumPathOf]

namespace Target

/-- The type of an enum as a scope names it, given the scope that declares the enum. -/
def CppStl.enumTypeOf (scope : Scope) (owner : String) (decl : EnumDecl) : String :=
  if owner.isEmpty then rootEnumType decl.name
  else if owner == scope.path then nestedEnumType decl
  else classAt scope.module owner ++ "::" ++ nestedEnumType decl

theorem CppStl.enumType_eq {scope : Scope} {reference owner : String} {decl : EnumDecl}
    (found : scope.enumOwner? reference = some (owner, decl)) :
    enumType scope reference false = enumTypeOf scope owner decl := by
  simp only [enumType, found, Bool.not_false, Bool.and_true, enumTypeOf]

/-- What stands before a number that is made a value of an enum, given the scope that declares the
enum. -/
def conversion (target : Target) (scope : Scope) (owner : String) (decl : EnumDecl) : String :=
  match target with
  | .cppStl => "static_cast<" ++ CppStl.enumTypeOf scope owner decl ++ ">("
  | .python => "KaitaiStream.resolve_enum(" ++ scope.enumPathOf "." className owner decl ++ ", "
  | .ruby =>
    "Kaitai::Struct::Stream::resolve_enum(" ++ scope.enumPathOf "::" Ruby.constant owner decl ++
      ", "
  | _ => scope.enumPathOf "." className owner decl ++ "("

/-- A text as a value of an enum. -/
def converted (target : Target) (scope : Scope) (owner : String) (decl : EnumDecl)
    (text : String) : String :=
  target.conversion scope owner decl ++ text ++ ")"

theorem tagged_eq {scope : Scope} {reference owner : String} {decl : EnumDecl}
    (found : scope.enumOwner? reference = some (owner, decl)) (target : Target) (text : String) :
    (target.dialect scope).tagged reference text = target.converted scope owner decl text := by
  have path := Scope.enumPath_eq found
  cases target with
  | cppStl =>
    change "static_cast<" ++ CppStl.enumType scope reference false ++ ">(" ++ text ++ ")" = _
    rw [CppStl.enumType_eq found]
    rfl
  | python =>
    change "KaitaiStream.resolve_enum(" ++ scope.enumPath "." className reference ++ ", " ++ text ++
      ")" = _
    rw [path]
    rfl
  | ruby =>
    change "Kaitai::Struct::Stream::resolve_enum(" ++ scope.enumPath "::" Ruby.constant reference ++
      ", " ++ text ++ ")" = _
    rw [path]
    rfl
  | lua | wiresharkLua =>
    change scope.enumPath "." className reference ++ "(" ++ text ++ ")" = _
    rw [path]
    rfl

/-- A text is never what it is converted to, which is longer. -/
theorem ne_converted (target : Target) (scope : Scope) (owner : String) (decl : EnumDecl)
    (text : String) : text ≠ target.converted scope owner decl text := by
  intro same
  have lengths := congrArg String.length same
  simp only [converted, String.length_append] at lengths
  have closing : ")".length = 1 := rfl
  omega

theorem CppStl.readCases_ne_nil {field : Field} (inhabited : field.cases ≠ []) :
    cppStl.readCases field ≠ [] := by
  dsimp only [readCases]
  split
  · exact inhabited
  · intro empty
    obtain ⟨case, member⟩ := List.exists_mem_of_ne_nil _ inhabited
    obtain ⟨valued, fallback⟩ := List.append_eq_nil_iff.mp empty
    have unvalued := List.filter_eq_nil_iff.mp valued case member
    have unfound := List.find?_eq_none.mp (Option.toList_eq_nil_iff.mp fallback) case
      (List.mem_reverse.mpr member)
    cases found : case.value <;> simp [found] at unvalued unfound

end Target

theorem Scope.primitiveRead_ne_record (scope : Scope) (field : Field) (type : TypeRef)
    (found : Structure) : scope.primitiveRead field type ≠ .record found := by
  unfold primitiveRead Read.ofPrimitive
  split <;> exact Read.noConfusion

theorem Kept.text_tagged {dialect : Dialect} {read : Read} (reference : String)
    (bare : ∀ found, read ≠ .record found) :
    Kept.text dialect ⟨some reference, read⟩ = dialect.tagged reference (dialect.read read) := by
  cases read with
  | record type => exact absurd rfl (bare type)
  | number type order => rfl
  | bytes size transform => rfl
  | text size encoding => rfl

/-- The reads of a field that is no structure are not of structures. -/
theorem Scope.stored_ne_record {scope : Scope} {field : Field} {enumName : Option String}
    {cases : List SwitchCase} {kept : Kept} (bare : scope.fieldStructure? field = none)
    (member : kept ∈ scope.stored field enumName cases) (found : Structure) :
    kept.read ≠ .record found := by
  unfold stored at member
  cases switchOn : field.switchOn with
  | none =>
    rw [switchOn, List.mem_singleton] at member
    rw [fieldStructure_plain switchOn] at bare
    have read : scope.read field field.type = scope.primitiveRead field field.type := by
      simp [Scope.read, switchOn, bare]
    rw [member, read]
    exact scope.primitiveRead_ne_record field field.type found
  | some selector =>
    rw [switchOn] at member
    obtain ⟨case, -, rfl⟩ := List.mem_map.mp member
    rw [read_case (by rw [switchOn]; rfl)]
    exact scope.primitiveRead_ne_record field case.type found

theorem Field.IsSupported.transform_eq_none {scope : Scope} {field : Field}
    (supported : field.IsSupported scope) (bare : scope.fieldStructure? field = none)
    {reference : String} (tagged : field.enumName = some reference) : field.transform = none := by
  obtain ⟨type, -, -, changed, enums⟩ := supported.stored bare
  have integer := (enums reference tagged).2
  by_contra present
  rw [(changed (Option.isSome_iff_ne_none.mpr present)).1] at integer
  cases integer

namespace Target

variable {scope : Scope} {field : Field} {reference owner : String} {decl : EnumDecl}

/-- What is kept is a value of the enum where it is tagged, and the bare number elsewhere. -/
theorem text_eq_converted_iff (found : scope.enumOwner? reference = some (owner, decl))
    (target : Target) {kept : Kept} (bare : ∀ type, kept.read ≠ .record type)
    (known : kept.enumName = none ∨ kept.enumName = some reference) :
    kept.text (target.dialect scope) =
        target.converted scope owner decl ((target.dialect scope).read kept.read) ↔
      kept.enumName = some reference := by
  obtain ⟨enumName, read⟩ := kept
  rcases known with rfl | rfl
  · rw [Kept.text_bare]
    exact iff_of_false (target.ne_converted scope owner decl _) (Option.some_ne_none _).symm
  · rw [Kept.text_tagged reference bare, tagged_eq found]
    exact iff_of_true rfl rfl

theorem enumName_of_mem_stored (tagged : field.enumName = some reference) (target : Target)
    {kept : Kept}
    (member : kept ∈ scope.stored field (target.caseEnum field) (target.readCases field)) :
    kept.enumName = none ∨ kept.enumName = some reference := by
  unfold Scope.stored at member
  split at member
  · rw [List.mem_singleton.mp member]
    exact .inr tagged
  · obtain ⟨case, -, rfl⟩ := List.mem_map.mp member
    cases target with
    | cppStl => exact .inl rfl
    | python | ruby | lua | wiresharkLua => exact .inr tagged

theorem forall_stored_tagged_iff (tagged : field.enumName = some reference) (target : Target) :
    (∀ kept ∈ scope.stored field (target.caseEnum field) (target.readCases field),
        kept.enumName = some reference) ↔
      (target = .cppStl → field.switchOn = none ∨ field.cases = []) := by
  unfold Scope.stored
  cases switchOn : field.switchOn with
  | none => simp [tagged]
  | some selector =>
    rw [List.forall_mem_map]
    cases target with
    | cppStl =>
      have untagged : cppStl.caseEnum field ≠ some reference := nofun
      have empty : field.cases = [] → cppStl.readCases field = [] := by
        intro empty
        simp [readCases, empty]
      simp only [untagged, imp_false, reduceCtorEq, false_or, forall_const]
      rw [← List.eq_nil_iff_forall_not_mem]
      exact ⟨fun none => by_contra fun inhabited => CppStl.readCases_ne_nil inhabited none, empty⟩
    | python | ruby | lua | wiresharkLua => simp [caseEnum, tagged]

end Target

namespace Module

/-- The enum of a field in a supported module is found, and whatever a target keeps of the field is
made a value of that enum, with one exception: the cases of a switch in the `cpp_stl` target. -/
theorem enum_fields_tagged_iff {module : Module} (supported : module.unsupported? = none)
    {scope : Scope} (listed : scope ∈ module.scopes) {field : Field}
    (member : field ∈ scope.format.fields) {reference : String}
    (tagged : field.enumName = some reference) :
    ∃ owner decl, scope.enumOwner? reference = some (owner, decl) ∧ ∀ target : Target,
      target.fieldRead scope field =
        (target.fieldTemplate scope field).code (target.dialect scope) ∧
      (target.fieldTemplate scope field).kept =
        scope.stored field (target.caseEnum field) (target.readCases field) ∧
      ((∀ kept ∈ (target.fieldTemplate scope field).kept, kept.text (target.dialect scope) =
          target.converted scope owner decl ((target.dialect scope).read kept.read)) ↔
        (target = .cppStl → field.switchOn = none ∨ field.cases = [])) := by
  have isSupported := (unsupported_eq_none_iff module).mp supported scope listed
  obtain ⟨bare, ⟨type, stored, integer⟩, owner, decl, found⟩ :=
    isSupported.settled.enums field member reference tagged
  have unchanged := (isSupported.fields field member).transform_eq_none bare tagged
  refine ⟨owner, decl, found, fun target => ⟨(target.code_fieldTemplate scope field).symm, ?_⟩⟩
  have kept : (target.fieldTemplate scope field).kept =
      scope.stored field (target.caseEnum field) (target.readCases field) := by
    rw [target.kept_fieldTemplate fun _ => unchanged, Target.kept, if_neg (by simp [unchanged])]
  refine ⟨kept, ?_⟩
  rw [kept, ← Target.forall_stored_tagged_iff tagged target]
  apply forall₂_congr
  intro kept member
  exact target.text_eq_converted_iff found (Scope.stored_ne_record bare member)
    (target.enumName_of_mem_stored tagged member)

/-- An enum that a switch over numbers of two sizes is of. -/
theorem enum_fields_tagged_iff_switch :
    let body : Field :=
      { id := "body", type := .primitive .u1, enumName := some "kind", repetition := .toEnd,
        switchOn := some (.name "tag"),
        cases := [⟨some (.int 1), .primitive .u4⟩, ⟨none, .primitive .u2⟩] }
    let root : Format :=
      { name := "top", order := .little, enums := [⟨"kind", [⟨0, "zero"⟩]⟩],
        fields := [{ id := "tag", type := .primitive .u1, enumName := some "kind" }, body] }
    let module : Module := { root, nested := [] }
    module.unsupported? = none ∧ ∃ owner decl,
      module.rootScope.enumOwner? "kind" = some (owner, decl) ∧ ∀ target : Target,
        (∀ kept ∈ (target.fieldTemplate module.rootScope body).kept,
          kept.text (target.dialect module.rootScope) = target.converted module.rootScope owner decl
            ((target.dialect module.rootScope).read kept.read)) ↔ target ≠ .cppStl := by
  intro body root module
  have supported : module.unsupported? = none := by decide +kernel
  obtain ⟨owner, decl, found, texts⟩ := enum_fields_tagged_iff supported
    List.mem_cons_self (List.mem_cons_of_mem _ List.mem_cons_self : body ∈ root.fields) rfl
  refine ⟨supported, owner, decl, found, fun target => (texts target).2.2.trans ?_⟩
  simp [body]

/-- A switch of an enum that is valid and supported. One target assigns the number it reads, and
another makes it a value of the enum. -/
theorem enum_field_untagged :
    let body : Field :=
      { id := "body", type := .primitive .u1, enumName := some "kind",
        switchOn := some (.name "tag"),
        cases := [⟨some (.int 1), .primitive .u1⟩, ⟨none, .primitive .u2⟩] }
    let root : Format :=
      { name := "top", order := .little, enums := [⟨"kind", [⟨0, "zero"⟩]⟩],
        fields := [{ id := "tag", type := .primitive .u1 }, body] }
    root.violation? = none ∧ ∃ module, ofFormat root = .ok module ∧ module.unsupported? = none ∧
      Target.CppStl.baseType module.rootScope body false = "kind_e" ∧
      .line "m_body = m__io->read_u1();" ∈ Target.CppStl.fieldRead module.rootScope body ∧
      .line "m_body = m__io->read_u2le();" ∈ Target.CppStl.fieldRead module.rootScope body ∧
      .line "self.body = KaitaiStream.resolve_enum(Top.Kind, self._io.read_u1())" ∈
        Target.Python.fieldRead module.rootScope body := by
  intro body root
  refine ⟨by decide, { root, nested := [] }, rfl, by decide +kernel, ?_, ?_, ?_, ?_⟩
  · decide +kernel
  · decide +kernel
  · decide +kernel
  · decide +kernel

end Module

end FormatCompiler
