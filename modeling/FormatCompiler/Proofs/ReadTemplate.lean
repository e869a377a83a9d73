import FormatCompiler.Proofs.FieldCoherence
import FormatCompiler.Proofs.TargetLookup

/-!
The templates of generated code: what a template keeps, and the templates of all targets side by
side.
-/

namespace FormatCompiler

set_option autoImplicit false

def Slot.kept? : Slot → Option Kept
  | .plain _ => none
  | .keep _ kept _ => some kept

namespace Template

/-- What is kept, in the order of the lines. -/
def kept (template : Template) : List Kept :=
  template.filterMap Slot.kept?

section

variable (first second body : Template) (text head before after : String) (value : Kept)
  (slot : Slot) (steps : Code)

theorem kept_flatMap {α : Type} (items : List α) (template : α → Template) :
    kept (items.flatMap template) = items.flatMap fun item => (template item).kept :=
  List.filterMap_flatMap ..

@[simp] theorem kept_nil : kept [] = [] := rfl

@[simp] theorem kept_cons : kept (slot :: body) = slot.kept?.toList ++ body.kept := by
  cases slot <;> rfl

@[simp] theorem kept?_line : (Slot.line text).kept? = none := rfl

@[simp] theorem kept?_blank : Slot.blank.kept? = none := rfl

@[simp] theorem kept?_plain (step : Step) : (Slot.plain step).kept? = none := rfl

@[simp] theorem kept?_keep : (Slot.keep before value after).kept? = some value := rfl

@[simp] theorem kept_append : kept (first ++ second) = first.kept ++ second.kept :=
  List.filterMap_append

@[simp] theorem kept_plain : (plain steps).kept = [] := by
  induction steps with
  | nil => rfl
  | cons step rest ih => exact ih

@[simp] theorem kept_block : (block body).kept = body.kept := by
  simp [block]

@[simp] theorem kept_branch : (branch head slot).kept = kept [slot] := by
  simp [branch]

@[simp] theorem kept_away (leave : String) (seek : Option String) (back : String) :
    (away leave seek slot back).kept = kept [slot] := by
  cases seek <;> simp [away]

theorem kept_arms (heading : String → Expr → String) (line : SwitchCase → Slot)
    (later opening : String) (cases : List SwitchCase) :
    (arms heading line later opening cases).kept =
      (cases.filter (·.value.isSome)).flatMap fun case => kept [line case] := by
  induction cases generalizing opening with
  | nil => rfl
  | cons case rest ih =>
    unfold arms
    cases found : case.value with
    | none => simp [found, ih]
    | some value => simp [found, ih]

end

end Template

theorem Kept.text_bare (dialect : Dialect) (read : Read) :
    Kept.text dialect ⟨none, read⟩ = dialect.read read := by
  cases read <;> rfl

namespace Target

def dialect : Target → Scope → Dialect
  | .cppStl => CppStl.dialect
  | .python => Python.dialect
  | .ruby => Ruby.dialect
  | .lua => Lua.dialect
  | .wiresharkLua => Lua.dialect

/-- The code that reads a field, under its condition. -/
def fieldRead : Target → Scope → Field → Code
  | .cppStl => CppStl.fieldRead
  | .python => Python.fieldRead
  | .ruby => Ruby.fieldRead
  | .lua => Lua.fieldRead
  | .wiresharkLua => Lua.fieldRead

def fieldTemplate : Target → Scope → Field → Template
  | .cppStl => CppStl.fieldTemplate
  | .python => Python.fieldTemplate
  | .ruby => Ruby.fieldTemplate
  | .lua => Lua.fieldTemplate
  | .wiresharkLua => Lua.fieldTemplate

theorem code_fieldTemplate (target : Target) (scope : Scope) (field : Field) :
    (target.fieldTemplate scope field).code (target.dialect scope) =
      target.fieldRead scope field := by
  cases target <;> rfl

/-- The code of an instance. -/
def instanceCode : Target → Scope → Instance → Code
  | .cppStl => CppStl.instanceMethod
  | .python => Python.instanceProperty
  | .ruby => Ruby.instanceMethod
  | .lua => Lua.instanceCode
  | .wiresharkLua => Lua.instanceCode

def instanceTemplate : Target → Scope → Instance → Template
  | .cppStl => CppStl.instanceTemplate
  | .python => Python.instanceTemplate
  | .ruby => Ruby.instanceTemplate
  | .lua => Lua.instanceTemplate
  | .wiresharkLua => Lua.instanceTemplate

theorem code_instanceTemplate (target : Target) (scope : Scope) (inst : Instance) :
    (target.instanceTemplate scope inst).code (target.dialect scope) =
      target.instanceCode scope inst := by
  cases target <;> rfl

end Target

end FormatCompiler
