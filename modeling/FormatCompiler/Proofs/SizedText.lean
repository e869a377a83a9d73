import FormatCompiler.Proofs.SizelessText

/-!
Text of a given size: what is read as such, and what the read takes from the field. Outside a switch
the declared type decides, and in a switch the types of the cases that a target reads.
-/

namespace FormatCompiler

set_option autoImplicit false

namespace Read

/-- Text of a given size, the only read that depends on an encoding. -/
def isSizedText : Read → Bool
  | .text (some _) _ => true
  | _ => false

theorem eq_text_of_isSizedText {read : Read} (sized : read.isSizedText = true) :
    ∃ size encoding, read = .text (some size) encoding := by
  unfold isSizedText at sized
  split at sized
  · exact ⟨_, _, rfl⟩
  · cases sized

section

variable {type : Primitive} {order : ByteOrder} {size : Option Expr} {encoding : Option String}
  {transform : Option Transform}

theorem isSizedText_ofPrimitive :
    (ofPrimitive type order size encoding transform).isSizedText = true ↔
      type = .str ∧ size.isSome := by
  cases type <;> cases size <;> simp [ofPrimitive, isSizedText]

theorem ofPrimitive_of_isSizedText
    (sized : (ofPrimitive type order size encoding transform).isSizedText = true) :
    ofPrimitive type order size encoding transform = .text size encoding := by
  obtain ⟨rfl, -⟩ := isSizedText_ofPrimitive.mp sized
  rfl

end

end Read

namespace Scope

/-- A switch that reads text of a given size in some case of a target. -/
structure SwitchesToText (scope : Scope) (target : Target) (field : Field) : Prop where
  switched : field.switchOn.isSome
  sized : field.size.isSome
  text : ∃ case ∈ target.readCases field, scope.primitive? case.type = some .str

variable {scope : Scope} {field : Field}

theorem isSizedText_primitiveRead (type : TypeRef) :
    (scope.primitiveRead field type).isSizedText = true ↔
      scope.primitive? type = some .str ∧ field.size.isSome := by
  rw [primitiveRead, Read.isSizedText_ofPrimitive, primitive_eq_str_iff]

theorem isSizedText_read (plain : field.switchOn = none) :
    (scope.read field field.type).isSizedText = true ↔
      scope.primitive? field.type = some .str ∧ field.size.isSome := by
  unfold Scope.read
  simp only [plain, Option.isNone_none, ↓reduceIte]
  cases found : scope.structure? field.type with
  | none => exact isSizedText_primitiveRead field.type
  | some type =>
    refine iff_of_false Bool.false_ne_true ?_
    rintro ⟨text, -⟩
    rw [structure_of_primitive text] at found
    cases found

theorem isSizedText_ruleRead (rule : ParseRule) :
    (scope.ruleRead rule).isSizedText = true ↔
      scope.primitive? rule.type = some .str ∧ rule.size.isSome := by
  unfold ruleRead
  cases found : scope.structure? rule.type with
  | none => rw [Read.isSizedText_ofPrimitive, primitive_eq_str_iff]
  | some type =>
    refine iff_of_false Bool.false_ne_true ?_
    rintro ⟨text, -⟩
    rw [structure_of_primitive text] at found
    cases found

theorem read_of_isSizedText {type : TypeRef}
    (sized : (scope.read field type).isSizedText = true) :
    scope.read field type = .text field.size field.encoding := by
  unfold Scope.read at sized ⊢
  split at sized
  · cases sized
  · exact Read.ofPrimitive_of_isSizedText sized

theorem ruleRead_of_isSizedText {rule : ParseRule}
    (sized : (scope.ruleRead rule).isSizedText = true) :
    scope.ruleRead rule = .text rule.size rule.encoding := by
  unfold ruleRead at sized ⊢
  split at sized
  · cases sized
  · exact Read.ofPrimitive_of_isSizedText sized

/-- Text is not changed once it is read. -/
theorem transform_of_text (supported : field.IsSupported scope) (plain : field.switchOn = none)
    (text : scope.primitive? field.type = some .str) : field.transform = none := by
  have bare : scope.fieldStructure? field = none := by
    rw [fieldStructure_plain plain, structure_of_primitive text]
  have stored : scope.fieldPrimitive? field = scope.primitive? field.type := by
    simp [fieldPrimitive?, plain]
  obtain ⟨type, found, -, changed, -⟩ := supported.stored bare
  rw [stored, text, Option.some.injEq] at found
  by_contra present
  have bytes := (changed (Option.isSome_iff_ne_none.mpr present)).1
  rw [← found] at bytes
  cases bytes

/-- A field with an encoding is not one of an enum. -/
theorem enumName_of_encoding (supported : field.IsSupported scope)
    (encoded : field.encoding.isSome) : field.enumName = none := by
  cases found : scope.fieldStructure? field with
  | some type => exact (supported.plain (by rw [found]; rfl)).2.2
  | none =>
    obtain ⟨type, -, text, -, integer⟩ := supported.stored found
    cases named : field.enumName with
    | none => rfl
    | some name =>
      have number := (integer name named).2
      rw [text encoded] at number
      cases number

end Scope

namespace Target

variable {scope : Scope} {field : Field}

/-- A field is read as text of a given size if its own type is text, or in the cases of a switch. -/
theorem exists_sizedText_iff (target : Target) (supported : field.IsSupported scope) :
    (∃ kept ∈ (target.fieldTemplate scope field).kept, kept.read.isSizedText = true) ↔
      field.switchOn = none ∧ scope.primitive? field.type = some .str ∧ field.size.isSome ∨
        scope.SwitchesToText target field := by
  rw [target.kept_fieldTemplate supported.transform_of_switch, Target.kept]
  cases switchOn : field.switchOn with
  | none =>
    have unswitched : ¬ scope.SwitchesToText target field := by
      intro switches
      simpa [switchOn] using switches.switched
    simp only [unswitched, or_false, true_and]
    split
    · next changed =>
      refine iff_of_false (by simp [Read.isSizedText]) ?_
      rintro ⟨text, -⟩
      simpa [Scope.transform_of_text supported switchOn text] using changed.2
    · simp [Scope.stored, switchOn, Scope.isSizedText_read switchOn]
  | some selector =>
    have switched : field.switchOn.isSome := by rw [switchOn]; rfl
    rw [if_neg (by simp [supported.transform_of_switch switched])]
    simp only [Scope.stored, switchOn, Scope.read_case switched, reduceCtorEq, false_and, false_or]
    constructor
    · rintro ⟨entry, member, sized⟩
      obtain ⟨case, read, rfl⟩ := List.mem_map.mp member
      obtain ⟨text, sized⟩ := (Scope.isSizedText_primitiveRead _).mp sized
      exact ⟨switched, sized, case, read, text⟩
    · rintro ⟨-, sized, case, read, text⟩
      refine ⟨_, List.mem_map.mpr ⟨case, read, rfl⟩, ?_⟩
      exact (Scope.isSizedText_primitiveRead _).mpr ⟨text, sized⟩

/-- Text of a given size has the size and the encoding of its field. With an encoding it is of no
enum. -/
theorem eq_of_isSizedText {target : Target} (supported : field.IsSupported scope) {kept : Kept}
    (member : kept ∈ (target.fieldTemplate scope field).kept)
    (sized : kept.read.isSizedText = true) :
    kept.read = .text field.size field.encoding ∧
      (field.encoding.isSome → kept.enumName = none) := by
  rw [target.kept_fieldTemplate supported.transform_of_switch, Target.kept] at member
  split at member
  · rw [List.mem_singleton.mp member] at sized
    cases sized
  · unfold Scope.stored at member
    cases switchOn : field.switchOn with
    | none =>
      rw [switchOn] at member
      obtain rfl := List.mem_singleton.mp member
      exact ⟨Scope.read_of_isSizedText sized, Scope.enumName_of_encoding supported⟩
    | some selector =>
      rw [switchOn] at member
      obtain ⟨case, -, rfl⟩ := List.mem_map.mp member
      refine ⟨Scope.read_of_isSizedText sized, fun encoded => ?_⟩
      cases target with
      | cppStl => rfl
      | python | ruby | lua | wiresharkLua => exact Scope.enumName_of_encoding supported encoded

end Target

end FormatCompiler
