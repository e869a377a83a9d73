import FormatCompiler.Proofs.ReadTemplate

/-!
What the targets keep of a field or an instance, listed from the templates of their code. They agree
outside switches. In a switch they read different cases where there are several fallbacks, and one
of them tags none of the cases with the enum of the field.
-/

namespace FormatCompiler

set_option autoImplicit false

/-! ### What the templates keep -/

/-- What is kept of a field that is stored as it is read, given the cases that a switch reads and
the enum they are tagged with. -/
def Scope.stored (scope : Scope) (field : Field) (enumName : Option String)
    (cases : List SwitchCase) : List Kept :=
  match field.switchOn with
  | none => [⟨field.enumName, scope.read field field.type⟩]
  | some _ => cases.map fun case => ⟨enumName, scope.read field case.type⟩

namespace Target

section

variable (scope : Scope) (field : Field)

theorem Ruby.kept_store (start : String) :
    (store scope field start).kept = scope.stored field field.enumName
      (field.cases.filter (·.value.isSome) ++ field.cases.filter (·.value.isNone)) := by
  unfold store Scope.stored
  cases field.switchOn with
  | none => rfl
  | some selector =>
    simp [arms, arm, Template.kept_flatMap, List.partition_eq_filter_filter, Function.comp_def,
      List.map_eq_flatMap]

theorem Python.kept_store (sink : Python.Sink) :
    (store scope field sink).kept = scope.stored field field.enumName
      (field.cases.filter (·.value.isSome) ++ field.fallback.toList) := by
  have last : Template.kept [otherwise scope field sink] = field.fallback.toList.map fun case =>
      ⟨field.enumName, scope.read field case.type⟩ := by
    unfold otherwise
    cases field.fallback <;> rfl
  have valued : (arms scope field sink).kept =
      (field.cases.filter (·.value.isSome)).map fun case =>
        ⟨field.enumName, scope.read field case.type⟩ :=
    (Template.kept_arms ..).trans List.map_eq_flatMap.symm
  unfold store Scope.stored
  cases field.switchOn with
  | none => rfl
  | some selector =>
    dsimp only
    rw [List.map_append, ← valued, ← last]
    cases arms scope field sink <;> simp

theorem Lua.kept_store (start : String) :
    (store scope field start).kept = scope.stored field field.enumName
      (field.cases.filter (·.value.isSome) ++ field.fallback.toList) := by
  have last : Template.kept (otherwise scope field start).toList =
      field.fallback.toList.map fun case => ⟨field.enumName, scope.read field case.type⟩ := by
    unfold otherwise
    cases field.fallback with
    | none => cases field.hasLiteralCases <;> rfl
    | some case => rfl
  have branches : Template.kept
      ((otherwise scope field start).toList.flatMap (Template.branch "else")) =
        Template.kept (otherwise scope field start).toList := by
    cases otherwise scope field start <;> simp
  have valued : (arms scope field start).kept =
      (field.cases.filter (·.value.isSome)).map fun case =>
        ⟨field.enumName, scope.read field case.type⟩ :=
    (Template.kept_arms ..).trans List.map_eq_flatMap.symm
  unfold store Scope.stored
  cases field.switchOn with
  | none => rfl
  | some selector =>
    dsimp only
    rw [List.map_append, ← valued, ← last]
    cases arms scope field start <;> simp [branches]

theorem CppStl.kept?_caseRead (before : String) (case : SwitchCase) (after : String) :
    (caseRead scope field before case after).kept? =
      some ⟨none, scope.primitiveRead field case.type⟩ := rfl

theorem CppStl.kept_switchValue (selector : Expr) (before after : String) :
    (switchValue scope field selector before after).kept =
      (field.cases.filter (·.value.isSome) ++
        (field.cases.reverse.find? (·.value.isNone)).toList).map fun case =>
          ⟨none, scope.primitiveRead field case.type⟩ := by
  have arms : ∀ cases : List SwitchCase,
      Template.kept (cases.filterMap fun case => case.value.map fun value => caseRead scope field
        ("if (" ++ (dialect scope).expr (.binary "==" selector value) ++ ") return ") case ";") =
      (cases.filter (·.value.isSome)).map fun case =>
        ⟨none, scope.primitiveRead field case.type⟩ := by
    intro cases
    induction cases with
    | nil => rfl
    | cons case rest ih => cases valued : case.value <;> simp [valued, ih, kept?_caseRead]
  unfold switchValue
  cases field.cases.reverse.find? fun case => case.value.isNone with
  | none => simp [arms]
  | some case => simp [arms, kept?_caseRead]

theorem CppStl.kept_fieldValue (before after : String) :
    (fieldValue scope field before after).kept = scope.stored field none
      (field.cases.filter (·.value.isSome) ++
        (field.cases.reverse.find? (·.value.isNone)).toList) := by
  unfold fieldValue Scope.stored
  cases found : field.switchOn with
  | none => cases read : scope.read field field.type <;> simp
  | some selector =>
    have switched : field.switchOn.isSome := by rw [found]; rfl
    simp only [kept_switchValue, Scope.read_case switched]

theorem CppStl.kept_arms (cases : List SwitchCase) :
    Template.kept (cases.flatMap (switchArm scope field)) =
      cases.map fun case => ⟨none, scope.primitiveRead field case.type⟩ := by
  simp [Template.kept_flatMap, switchArm, kept?_caseRead, List.map_eq_flatMap]

end

/-- The cases of a switch that a target reads. Of several fallbacks it may take the first, the last
or all. -/
def readCases (target : Target) (field : Field) : List SwitchCase :=
  let valued := field.cases.filter (·.value.isSome)
  match target with
  | .cppStl =>
    if field.repetition = .once ∧ field.hasLiteralCases then field.cases
    else valued ++ (field.cases.reverse.find? (·.value.isNone)).toList
  | .ruby => valued ++ field.cases.filter (·.value.isNone)
  | _ => valued ++ field.fallback.toList

theorem mem_of_mem_readCases {target : Target} {field : Field} {case : SwitchCase}
    (read : case ∈ target.readCases field) : case ∈ field.cases := by
  cases target with
  | cppStl =>
    dsimp only [readCases] at read
    split at read
    · exact read
    · rcases List.mem_append.mp read with valued | last
      · exact List.mem_of_mem_filter valued
      · exact List.mem_reverse.mp (List.mem_of_find?_eq_some (Option.mem_toList.mp last))
  | ruby =>
    rcases List.mem_append.mp read with valued | fallback
    · exact List.mem_of_mem_filter valued
    · exact List.mem_of_mem_filter fallback
  | python | lua | wiresharkLua =>
    rcases List.mem_append.mp read with valued | fallback
    · exact List.mem_of_mem_filter valued
    · exact List.mem_of_find?_eq_some (Option.mem_toList.mp fallback)

/-- One target reads every case. -/
theorem mem_readCases_ruby {field : Field} {case : SwitchCase} (member : case ∈ field.cases) :
    case ∈ ruby.readCases field := by
  apply List.mem_append.mpr
  cases found : case.value with
  | some value => exact .inl (List.mem_filter.mpr ⟨member, by rw [found]; rfl⟩)
  | none => exact .inr (List.mem_filter.mpr ⟨member, by rw [found]; rfl⟩)

/-- The enum that a target tags the cases of a switch with. -/
def caseEnum (target : Target) (field : Field) : Option String :=
  match target with
  | .cppStl => none
  | _ => field.enumName

/-- What a target keeps of a field. Of bytes that are changed once read it keeps what they were. -/
def kept (target : Target) (scope : Scope) (field : Field) : List Kept :=
  if field.repetition = .once ∧ field.transform.isSome then [⟨none, .bytes field.size none⟩]
  else scope.stored field (target.caseEnum field) (target.readCases field)

section

variable {scope : Scope} {field : Field}

theorem CppStl.kept_fieldBody (plain : field.switchOn.isSome → field.transform = none) :
    (CppStl.fieldBody scope field).kept = Target.cppStl.kept scope field := by
  have value := CppStl.kept_fieldValue scope field
  unfold CppStl.fieldBody Target.kept readCases caseEnum
  cases repetition : field.repetition with
  | once =>
    simp only [CppStl.singleRead]
    cases switchOn : field.switchOn with
    | none =>
      cases field.transform with
      | none => simp [value, Scope.stored, switchOn]
      | some change => simp
    | some selector =>
      have switched : field.switchOn.isSome := by rw [switchOn]; rfl
      cases field.hasLiteralCases with
      | true =>
        simp [plain switched, CppStl.kept_arms, Scope.stored, switchOn, Scope.read_case switched]
      | false => simp [plain switched, value]
  | toEnd => simp [value]
  | times => cases field.repeatExpr <;> simp [value]
  | stopWhen => cases field.repeatExpr <;> simp [value]

theorem Python.kept_fieldBody :
    (Python.fieldBody scope field).kept = Target.python.kept scope field := by
  have store := Python.kept_store scope field
  unfold Python.fieldBody Target.kept
  cases field.repetition with
  | once => cases field.transform <;> simp [store, readCases, caseEnum]
  | toEnd | times | stopWhen => simp [store, readCases, caseEnum]

theorem Ruby.kept_fieldBody :
    (Ruby.fieldBody scope field).kept = Target.ruby.kept scope field := by
  have store := Ruby.kept_store scope field
  unfold Ruby.fieldBody Target.kept
  cases field.repetition with
  | once => cases field.transform <;> simp [store, readCases, caseEnum]
  | toEnd | times | stopWhen => simp [store, readCases, caseEnum]

theorem Lua.kept_fieldBody :
    (Lua.fieldBody scope field).kept = Target.lua.kept scope field := by
  have store := Lua.kept_store scope field
  unfold Lua.fieldBody Target.kept
  cases field.repetition with
  | once => cases field.transform <;> simp [store, readCases, caseEnum]
  | toEnd | times => simp [store, readCases, caseEnum]
  | stopWhen => cases field.switchOn <;> simp [store, readCases, caseEnum]

/-- What the code of a field keeps. Only bytes outside a switch are changed once read. -/
theorem kept_fieldTemplate (plain : field.switchOn.isSome → field.transform = none)
    (target : Target) : (target.fieldTemplate scope field).kept = target.kept scope field := by
  cases target with
  | cppStl =>
    have body : (CppStl.fieldBody scope field).kept = _ := CppStl.kept_fieldBody plain
    simp only [fieldTemplate, CppStl.fieldTemplate]
    cases field.condition <;> simp [body]
  | python =>
    simp only [fieldTemplate, Python.fieldTemplate]
    cases field.condition <;> simp [Python.kept_fieldBody]
  | ruby =>
    simp only [fieldTemplate, Ruby.fieldTemplate]
    cases field.condition <;> simp [Ruby.kept_fieldBody]
  | lua =>
    simp only [fieldTemplate, Lua.fieldTemplate]
    cases field.condition <;> simp [Lua.kept_fieldBody]
  | wiresharkLua =>
    change (Lua.fieldTemplate scope field).kept = Target.lua.kept scope field
    simp only [Lua.fieldTemplate]
    cases field.condition <;> simp [Lua.kept_fieldBody]

end

/-- An instance that is read keeps what its rule says, and one that is computed keeps nothing. -/
theorem kept_instanceTemplate (target : Target) (scope : Scope) (inst : Instance) :
    (target.instanceTemplate scope inst).kept =
      inst.rule?.toList.map fun rule => ⟨none, scope.ruleRead rule⟩ := by
  obtain ⟨id, value | rule⟩ := inst
  all_goals cases target with
  | cppStl =>
    simp [instanceTemplate, CppStl.instanceTemplate, CppStl.instanceBody, Instance.rule?]
  | python =>
    simp [instanceTemplate, Python.instanceTemplate, Python.instanceBody, Instance.rule?]
  | ruby => simp [instanceTemplate, Ruby.instanceTemplate, Ruby.instanceBody, Instance.rule?]
  | lua | wiresharkLua => simp [instanceTemplate, Lua.instanceTemplate, Instance.rule?]

end Target

end FormatCompiler
