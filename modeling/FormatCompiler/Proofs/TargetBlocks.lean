import FormatCompiler.Compilation.Emission
import FormatCompiler.Proofs.ClassNesting

/-!
The blocks of the code of each target. What is written for a field, an instance or an enum is plain
and opens a few blocks at most. In `python`, `ruby` and the header of `cpp_stl` the class of a scope
has a place for the classes inside it; in the other files all classes stand side by side.
-/

namespace FormatCompiler

set_option autoImplicit false

namespace Template

section

variable (dialect : Dialect) (first second body : Template)

theorem code_append :
    code dialect (first ++ second) = first.code dialect ++ second.code dialect :=
  List.map_append

theorem code_block : (block body).code dialect = Code.block (body.code dialect) :=
  code_append dialect (.plain .indent :: body) [.plain .dedent]

theorem code_plain (steps : Code) : (plain steps).code dialect = steps := by
  rw [code, plain, List.map_map]
  exact List.map_id steps

end

variable {bound : Nat} {first second body rest : Template}

/-- The code of a template is plain, whatever the words of its reads. -/
structure Plain (bound : Nat) (template : Template) : Prop where
  code : ∀ dialect, Code.Plain bound (template.code dialect)

namespace Plain

theorem nil : Plain bound [] :=
  ⟨fun _ => .nil⟩

theorem line {text : String} (others : Plain bound rest) : Plain bound (.line text :: rest) :=
  ⟨fun dialect => .line (others.code dialect)⟩

theorem blank (others : Plain bound rest) : Plain bound (.blank :: rest) :=
  ⟨fun dialect => .blank (others.code dialect)⟩

theorem keep {before after : String} {kept : Kept} (others : Plain bound rest) :
    Plain bound (.keep before kept after :: rest) :=
  ⟨fun dialect => .line (others.code dialect)⟩

theorem append (before : Plain bound first) (behind : Plain bound second) :
    Plain bound (first ++ second) where
  code dialect := by
    rw [code_append]
    exact .append (before.code dialect) (behind.code dialect)

theorem block (inside : Plain bound body) : Plain (bound + 1) (block body) where
  code dialect := by
    rw [code_block]
    exact .block (inside.code dialect)

theorem plain {steps : Code} (isPlain : Code.Plain bound steps) : Plain bound (plain steps) where
  code dialect := by rwa [code_plain]

theorem branch {head : String} {slot : Slot} (inside : Plain bound [slot]) :
    Plain (bound + 1) (branch head slot) :=
  .line (.block inside)

theorem flatMap {α : Type} {list : List α} {each : α → Template}
    (inside : ∀ entry ∈ list, Plain bound (each entry)) : Plain bound (list.flatMap each) := by
  induction list with
  | nil => exact .nil
  | cons entry rest ih =>
    obtain ⟨here, later⟩ := List.forall_mem_cons.mp inside
    exact here.append (ih later)

theorem away {leave back : String} {seek : Option String} {slot : Slot}
    (inside : Plain bound [slot]) : Plain bound (away leave seek slot back) := by
  refine .append (.line ?_) (.append inside (.line .nil))
  cases seek with
  | none => exact .nil
  | some text => exact .line .nil

theorem arms {head : String → Expr → String} {line : SwitchCase → Slot} {later opening : String}
    {cases : List SwitchCase} (inside : ∀ case, Plain bound [line case]) :
    Plain (bound + 1) (arms head line later opening cases) := by
  induction cases generalizing opening with
  | nil => exact .nil
  | cons case rest ih =>
    rw [Template.arms]
    split
    · exact ih
    · exact .append (.branch (inside case)) ih

end Plain

end Template

namespace Target

open Code (Plain Shown Hosts HasLine)

variable {bound : Nat} {scope : Scope} {field : Field}

namespace Python

theorem plain_enumDecl (decl : EnumDecl) : Plain (bound + 1) (enumDecl decl) :=
  .append (.line (.block (.lines _))) (.blank .nil)

theorem plain_otherwise (sink : Sink) : Template.Plain bound [otherwise scope field sink] := by
  rw [otherwise]
  split
  · exact .keep .nil
  · exact .line .nil

theorem plain_store (sink : Sink) : Template.Plain (bound + 1) (store scope field sink) := by
  rw [store]
  split
  · exact .keep .nil
  · refine .line ?_
    split
    · exact plain_otherwise sink
    · exact .append (.arms fun _ => .keep .nil) (.branch (plain_otherwise sink))

theorem plain_fieldBody : Template.Plain (bound + 2) (fieldBody scope field) := by
  rw [fieldBody]
  split
  · split
    · exact .keep (.line .nil)
    · exact plain_store _
  · exact .line (.line (.block (plain_store _)))
  · exact .line (.line (.line (.block (.append (plain_store _) (.line .nil)))))
  · exact .line (.line (.line (.block
      (.append (.append (plain_store _) (.line (.line .nil))) (.branch (.line .nil))))))

theorem plain_fieldTemplate : Template.Plain (bound + 3) (fieldTemplate scope field) := by
  rw [fieldTemplate]
  split
  · exact plain_fieldBody
  · exact .line (.block plain_fieldBody)

theorem plain_check (validation : Validation) : Plain (bound + 1) (check scope validation) := by
  rw [check]
  split <;> exact .branch ..

theorem shown_fetchField : Shown (bound + 1) (fetchField scope field) := by
  rw [fetchField]
  split
  · split
    · exact .flat (.line .nil)
    · exact .flat .nil
  · exact .branch ..

theorem shown_fetchInstance (inst : Instance) : Shown (bound + 1) (fetchInstance scope inst) :=
  .line (.branch ..)

theorem plain_instanceBody (inst : Instance) : Template.Plain bound (instanceBody scope inst) := by
  rw [instanceBody]
  split
  · exact .line .nil
  · exact .away (.keep .nil)

theorem shown_instanceProperty (inst : Instance) : Shown 4 (instanceProperty scope inst) := by
  rw [instanceProperty, instanceTemplate, Template.code_append, Template.code_block,
    Template.code_append]
  refine .blank (.line (.line (.block ?_ (.append_right .line))))
  refine Plain.shown (Template.Plain.code ?_ _) (by decide) (.flat (.line .nil)) .line
  exact .append (.branch (.line .nil)) (.blank (plain_instanceBody inst))

theorem hosts_classCode : Hosts 1 5 (classCode scope) := by
  refine .append_left (.flat (.line .nil)) (.block (.append_right (.append_left ?_ .place) ?_) ?_)
  · -- the methods that read and fetch end with a line of their own
    refine Plain.shown ?_ (by decide) ?_ (.block (.append_left .line))
    · refine .append (.append (.append (.append ?_ (.line (.block ?_))) (.blank (.line .nil)))
        (.block (.append (.append ?_ ?_) ?_))) (.blank (.line .nil))
      · exact .flatMap fun decl _ => plain_enumDecl decl
      · exact .line (.line (.line (.line .nil)))
      · exact .flatMap fun _ _ => plain_fieldTemplate.code _
      · exact .flatMap fun validation _ => plain_check validation
      · split
        · exact .line .nil
        · exact .nil
    · exact .block (.append (.line (.flatMap fun _ _ => shown_fetchField))
        (.flatMap fun inst _ => shown_fetchInstance inst)) (.append_left .line)
  · exact .flatMap fun inst _ => shown_instanceProperty inst
  · intro nested
    exact .append_left (.append_left (.append_right (.block (.append_left .line))))

end Python

namespace Ruby

theorem plain_enumDecl (decl : EnumDecl) : Plain (bound + 1) (enumDecl decl) :=
  .append (.append (.blank (.line .nil)) (.block (.lines _))) (.line (.line .nil))

theorem plain_arms (start : String) : Template.Plain (bound + 1) (arms scope field start) := by
  refine .append (.flatMap fun case _ => .branch (.keep .nil)) (.plain ?_)
  split
  · exact .branch ..
  · exact .nil

theorem plain_store (start : String) : Template.Plain (bound + 1) (store scope field start) := by
  rw [store]
  split
  · exact .keep .nil
  · exact .append (.line (plain_arms start)) (.line .nil)

theorem plain_fieldBody : Template.Plain (bound + 2) (fieldBody scope field) := by
  rw [fieldBody]
  split
  · split
    · exact .keep (.line .nil)
    · exact plain_store _
  · exact .line (.line (.append (.block (plain_store _)) (.line .nil)))
  · exact .line (.line (.line (.append (.block (.append (plain_store _) (.line .nil)))
      (.line .nil))))
  · exact .line (.line (.line (.append
      (.block (.append (plain_store _) (.line (.line (.line .nil))))) (.line .nil))))

theorem plain_fieldTemplate : Template.Plain (bound + 3) (fieldTemplate scope field) := by
  rw [fieldTemplate]
  split
  · exact plain_fieldBody
  · exact .append (.line (.block plain_fieldBody)) (.line .nil)

theorem plain_check (validation : Validation) : Plain bound (check scope validation) := by
  rw [check]
  split <;> exact .line .nil

theorem plain_instanceBody (inst : Instance) : Template.Plain bound (instanceBody scope inst) := by
  rw [instanceBody]
  split
  · exact .line .nil
  · exact .away (.keep .nil)

theorem shown_instanceMethod (inst : Instance) : Shown 4 (instanceMethod scope inst) := by
  rw [instanceMethod, instanceTemplate, Template.code_append]
  refine Plain.shown (Template.Plain.code ?_ _) (by decide) (.flat (.line .nil)) .line
  exact .blank (.line (.block (.append (.line (plain_instanceBody inst)) (.line .nil))))

theorem hosts_classCode : Hosts 1 5 (classCode scope) := by
  refine .append_right (.append_left (.flat (.line .nil)) (.block (.append_right (.append_right
    (.append_right (.append_plain ?_ (by decide) (.append_left (.flat (.line .nil)) .place) ?_) ?_)
      ?_) ?_) ?_)) (.flat (.line .nil))
  · refine .append (.append (.append (.append ?_ (.blank (.line .nil))) ?_)
      (.line (.blank (.line .nil)))) (.block (.append (.append ?_ ?_) (.line .nil)))
    · exact .flatMap fun decl _ => plain_enumDecl decl
    · exact .block (.line (.line .nil))
    · exact .flatMap fun _ _ => plain_fieldTemplate.code _
    · exact .flatMap fun validation _ => plain_check validation
  · exact fun nested => .line
  · exact .flatMap fun inst _ => shown_instanceMethod inst
  · exact .flat (.blankIf _)
  · exact .flat (.lines _)
  · exact fun nested => .append_left (.append_left (.append_left (.append_right .line)))

end Ruby

namespace CppStl

theorem plain_rootEnum (decl : EnumDecl) : Plain (bound + 1) (rootEnum decl) :=
  .append (.line (.block (.separated ..))) (.line (.blank .nil))

theorem plain_nestedEnum (decl : EnumDecl) : Plain (bound + 2) (nestedEnum decl) := by
  refine .append (.append (.block (.append (.line (.block (.separated ..))) ?_)) ?_) ?_
  · exact .line (.line .nil)
  · exact .blank (.branch ..)
  · exact .blank (.line (.blank .nil))

theorem hasLine_accessors : HasLine (Code.lines (accessors scope)) :=
  ⟨_, List.mem_map_of_mem (List.mem_append_left _ (List.mem_append_left _
    (List.mem_append_right _ List.mem_cons_self)))⟩

theorem hasLine_members : HasLine (Code.lines (members scope)) :=
  ⟨_, List.mem_map_of_mem (List.mem_append_left _ (List.mem_append_right _ List.mem_cons_self))⟩

theorem hosts_classDecl : Hosts 1 5 (classDecl scope) := by
  refine .append_right (.append_right (.append_right (.append_right (.append_flat (.append_plain ?_
    (by decide) (.block (.append_left (.flat (.line .nil)) .place) ?_) ?_) ?_) ?_) ?_) ?_)
      (.flat (.line .nil))
  · refine .append (.append (.append (.append (.append (.append (.append ?_ ?_) ?_) (.blankIf _))
      ?_) ?_) ?_) ?_
    · exact .line (.blank (.line .nil))
    · exact .block (.append (.lines _) (.blankIf _))
    · exact .flatMap fun decl _ => plain_nestedEnum decl
    · exact .block (.line .nil)
    · exact .blank (.line .nil)
    · exact .block (.line (.line .nil))
    · exact .blank (.line .nil)
  · exact fun nested => .line
  · exact fun nested => .block .line
  · intro nested
    split
    · exact .nil
    · exact .blank (.line .nil)
  · exact .block (.flat (.lines _)) hasLine_accessors
  · exact .flat (.blank (.line .nil))
  · exact .block (.flat (.lines _)) hasLine_members

theorem plain_nestedEnumValues (decl : EnumDecl) :
    Plain (bound + 1) (nestedEnumValues scope decl) :=
  .append (.append (.line (.block (.lines _))) (.line (.branch ..))) (.line (.blank .nil))

theorem plain_valueMark (null : String) : Plain bound (valueMark field null) := by
  rw [valueMark]
  split
  · exact .line .nil
  · exact .nil

theorem plain_switchArm (case : SwitchCase) :
    Template.Plain (bound + 1) (switchArm scope field case) :=
  .append (.line (.block (.append (.plain (plain_valueMark _)) (.keep (.line .nil))))) (.line .nil)

theorem plain_switchValue (selector : Expr) (before after : String) :
    Template.Plain (bound + 1) (switchValue scope field selector before after) := by
  refine .append (.line (.block (.append ?_ ?_))) (.line .nil)
  · rw [List.filterMap_eq_flatMap_toList]
    refine .flatMap fun case _ => ?_
    cases case.value with
    | none => exact .nil
    | some value => exact .keep .nil
  · split
    · exact .keep .nil
    · exact .line .nil

theorem plain_fieldValue (before after : String) :
    Template.Plain (bound + 1) (fieldValue scope field before after) := by
  rw [fieldValue]
  split
  · exact plain_switchValue ..
  · split <;> exact .keep .nil

theorem plain_singleRead : Template.Plain (bound + 1) (singleRead scope field) := by
  rw [singleRead]
  split
  · split
    · exact .keep (.line .nil)
    · exact .append (plain_fieldValue ..) (.plain (plain_valueMark _))
  · split
    · exact .append (.line (.flatMap fun case _ => plain_switchArm case)) (.line .nil)
    · split
      · exact .keep (.line .nil)
      · exact .append (plain_fieldValue ..) (.plain (plain_valueMark _))

theorem plain_fieldBody : Template.Plain (bound + 2) (fieldBody scope field) := by
  rw [fieldBody]
  split
  · exact plain_singleRead
  · exact .line (.line (.line (.append (.block (plain_fieldValue ..)) (.line .nil))))
  · exact .line (.line (.append
      (.block (.append (plain_fieldValue ..) (.line (.line (.line .nil))))) (.line .nil)))
  · exact .line (.line (.append (.block (plain_fieldValue ..)) (.line .nil)))

theorem plain_fieldTemplate : Template.Plain (bound + 3) (fieldTemplate scope field) := by
  refine .append (.plain (plain_valueMark _)) ?_
  split
  · exact plain_fieldBody
  · exact .append (.line (.block plain_fieldBody)) (.line .nil)

theorem plain_check (validation : Validation) : Plain (bound + 1) (check scope validation) := by
  rw [check]
  split <;> exact .append (.branch ..) (.line .nil)

theorem plain_release (inst : Instance) : Plain (bound + 1) (release inst) :=
  .append (.line (.block (.line (.line .nil)))) (.line .nil)

theorem plain_instanceBody (inst : Instance) : Template.Plain bound (instanceBody scope inst) := by
  rw [instanceBody]
  split
  · exact .line .nil
  · exact .away (.keep .nil)

theorem plain_instanceTemplate (inst : Instance) :
    Template.Plain (bound + 2) (instanceTemplate scope inst) :=
  .append (.append (.blank (.line .nil)) (.block (.append (.append (.branch (.line .nil))
    (.line (plain_instanceBody inst))) (.line .nil)))) (.line .nil)

theorem plain_classDefs (nested : List Code) (inside : ∀ code ∈ nested, Plain 5 code) :
    Plain 5 (classDefs scope nested) := by
  refine .append (.append (.append (.append (.append (.append (.append (.append (.append ?_ ?_) ?_)
    ?_) ?_) (.branch ..)) ?_) ?_) ?_) ?_
  · exact .flatMap fun decl _ => plain_nestedEnumValues decl
  · exact .line (.block (.append (.line (.lines _)) (.line .nil)))
  · exact .line (.blank (.line .nil))
  · exact .block (.append (.flatMap fun _ _ => plain_fieldTemplate.code _)
      (.flatMap fun validation _ => plain_check validation))
  · exact .line (.blank .nil)
  · exact .line (.blank (.line .nil))
  · exact .block (.flatMap fun inst _ => plain_release inst)
  · exact .line (.flatMap fun code made => .blank (inside code made))
  · exact .flatMap fun inst _ => (plain_instanceTemplate inst).code _

end CppStl

namespace Lua

theorem plain_enumDecl (decl : EnumDecl) : Plain (bound + 1) (enumDecl scope decl) :=
  .append (.append (.blank (.line .nil)) (.block (.lines _))) (.line .nil)

theorem plain_otherwise {start : String} :
    ∀ slot ∈ (otherwise scope field start).toList, Template.Plain bound [slot] := by
  intro slot found
  rw [Option.mem_toList, otherwise] at found
  split at found
  · cases found
    exact .keep .nil
  · split at found
    · cases found
    · cases found
      exact .line .nil

theorem plain_store (start : String) : Template.Plain (bound + 1) (store scope field start) := by
  rw [store]
  split
  · exact .keep .nil
  · refine .line ?_
    split
    · rw [← List.flatMap_singleton' (otherwise scope field start).toList]
      exact .flatMap plain_otherwise
    · exact .append (.append (.arms fun _ => .keep .nil)
        (.flatMap fun slot found => .branch (plain_otherwise slot found))) (.line .nil)

theorem plain_fieldBody : Template.Plain (bound + 2) (fieldBody scope field) := by
  rw [fieldBody]
  split
  · split
    · exact .keep (.line .nil)
    · exact plain_store _
  · exact .line (.line (.append (.block (plain_store _)) (.line .nil)))
  · exact .line (.line (.append (.block (plain_store _)) (.line .nil)))
  · refine .line (.line (.append (.block (.append (.append ?_ (.line (.branch (.line .nil))))
      (.line .nil))) (.line .nil)))
    split
    · exact .line (plain_store _)
    · exact plain_store _

theorem plain_fieldTemplate : Template.Plain (bound + 3) (fieldTemplate scope field) := by
  rw [fieldTemplate]
  split
  · exact plain_fieldBody
  · exact .append (.line (.block plain_fieldBody)) (.line .nil)

theorem plain_check (validation : Validation) : Plain (bound + 1) (check scope validation) := by
  rw [check]
  split <;> exact .append (.branch ..) (.line .nil)

theorem plain_instanceTemplate (inst : Instance) :
    Template.Plain (bound + 2) (instanceTemplate scope inst) := by
  rw [instanceTemplate]
  split
  · exact .blank (.line (.append (.block (.line (.line (.line .nil)))) (.line .nil)))
  · refine .blank (.line (.line (.append (.block ?_) (.line .nil))))
    exact .append (.append (.append (.branch (.line .nil)) (.line (.blank .nil)))
      (.away (.keep .nil))) (.line .nil)

theorem plain_classHead : Plain 5 (classHead scope) := by
  refine .append (.append (.append (.append ?_ ?_) ?_) ?_) ?_
  · exact .blank (.line .nil)
  · exact .flatMap fun decl _ => plain_enumDecl decl
  · exact .blank (.line .nil)
  · exact .block (.line (.line (.line (.line .nil))))
  · exact .line (.blank (.line .nil))

theorem plain_classTemplate : Template.Plain 5 (classTemplate scope) := by
  refine .append (.append (.plain plain_classHead) (.block (.append ?_ (.plain ?_)))) (.line ?_)
  · exact .flatMap fun _ _ => plain_fieldTemplate
  · exact .flatMap fun validation _ => plain_check validation
  · exact .flatMap fun inst _ => plain_instanceTemplate inst

theorem plain_classCode (nested : List Code) (inside : ∀ code ∈ nested, Plain 5 code) :
    Plain 5 (classCode scope nested) :=
  .append (plain_classTemplate.code _) (.flatten inside)

theorem plain_dissector (module : Module) : Plain 5 (dissector module) := by
  refine .append (.append (.append (.append ?_ (.block ?_)) ?_) (.branch ..)) (.line .nil)
  · exact .blank (.line (.line (.blank (.line .nil))))
  · exact .append (.append (.append (.line (.line .nil)) (.branch ..)) (.line (.branch ..)))
      (.line .nil)
  · exact .line (.blank (.line (.line .nil)))

end Lua

end Target

end FormatCompiler
