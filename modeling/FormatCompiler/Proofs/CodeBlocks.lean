import Mathlib.Data.List.Basic
import FormatCompiler.Code

/-!
Blocks of generated text. Code is balanced when every block in it is closed and every level set
aside is taken up again, and then the number of open blocks comes back to what it was. Its depth is
the greatest number of its blocks that are open at a time.
-/

namespace FormatCompiler.Code

set_option autoImplicit false

/-- The number of open blocks after a step. -/
def opening (opened : Nat) : Step → Nat
  | .line _ => opened
  | .blank => opened
  | .indent => opened + 1
  | .dedent => opened - 1
  | .enter => opened
  | .leave => opened

/-- The greatest number of blocks that are open at a time, where some are open before. -/
def deepest (opened : Nat) : Code → Nat
  | [] => opened
  | step :: rest => max opened (deepest (opening opened step) rest)

/-- The greatest number of blocks of some code that are open at a time. -/
def depth (code : Code) : Nat :=
  deepest 0 code

/-- Every block is closed, and every level set aside is taken up again. -/
inductive Balanced : Code → Prop
  | nil : Balanced []
  | line {text : String} {rest : Code} (others : Balanced rest) : Balanced (.line text :: rest)
  | blank {rest : Code} (others : Balanced rest) : Balanced (.blank :: rest)
  | within {body rest : Code} (inside : Balanced body) (others : Balanced rest) :
      Balanced (block body ++ rest)
  | aside {body rest : Code} (inside : Balanced body) (others : Balanced rest) :
      Balanced (apart body ++ rest)

variable {first second body rest code : Code} {opened bound : Nat}

/-! ### Counting blocks -/

theorem le_deepest (opened : Nat) (code : Code) : opened ≤ deepest opened code := by
  cases code with
  | nil => exact Nat.le_refl opened
  | cons step rest => exact Nat.le_max_left _ _

theorem deepest_append (opened : Nat) (first second : Code) :
    deepest opened (first ++ second) =
      max (deepest opened first) (deepest (first.foldl opening opened) second) := by
  induction first generalizing opened with
  | nil => exact (Nat.max_eq_right (le_deepest opened second)).symm
  | cons step rest ih =>
    rw [List.cons_append, deepest, ih, ← Nat.max_assoc]
    rfl

theorem foldl_block {α : Type} (step : α → Step → α) (start : α) (body : Code) :
    (block body).foldl step start = step (body.foldl step (step start .indent)) .dedent := by
  rw [block, List.foldl_append]
  rfl

theorem foldl_apart {α : Type} (step : α → Step → α) (start : α) (body : Code) :
    (apart body).foldl step start = step (body.foldl step (step start .enter)) .leave := by
  rw [apart, List.foldl_append]
  rfl

theorem Balanced.foldl_opening (balanced : Balanced code) (opened : Nat) :
    code.foldl opening opened = opened := by
  induction balanced generalizing opened with
  | nil => rfl
  | line _ ih => exact ih opened
  | blank _ ih => exact ih opened
  | within _ _ body rest =>
    rw [List.foldl_append, foldl_block, body]
    exact rest opened
  | aside _ _ body rest =>
    rw [List.foldl_append, foldl_apart, body]
    exact rest opened

theorem deepest_block (balanced : Balanced body) (opened : Nat) :
    deepest opened (block body) = deepest (opened + 1) body := by
  have least := le_deepest (opened + 1) body
  have closed : deepest (opened + 1) [.dedent] = opened + 1 := by
    simp [deepest, opening]
  change max opened (deepest (opened + 1) (body ++ [Step.dedent])) = _
  rw [deepest_append, balanced.foldl_opening, closed]
  omega

theorem deepest_apart (balanced : Balanced body) (opened : Nat) :
    deepest opened (apart body) = deepest opened body := by
  have least := le_deepest opened body
  have closed : deepest opened [.leave] = opened := Nat.max_self opened
  change max opened (deepest opened (body ++ [Step.leave])) = _
  rw [deepest_append, balanced.foldl_opening, closed]
  omega

theorem deepest_line (opened : Nat) (text : String) (rest : Code) :
    deepest opened (.line text :: rest) = deepest opened rest :=
  Nat.max_eq_right (le_deepest opened rest)

theorem deepest_blank (opened : Nat) (rest : Code) :
    deepest opened (.blank :: rest) = deepest opened rest :=
  Nat.max_eq_right (le_deepest opened rest)

/-- Blocks that are open before only add to the depth. -/
theorem Balanced.deepest_eq (balanced : Balanced code) (opened : Nat) :
    deepest opened code = opened + depth code := by
  induction balanced generalizing opened with
  | nil => rfl
  | line _ ih => rw [depth, deepest_line, deepest_line, ih, depth]
  | blank _ ih => rw [depth, deepest_blank, deepest_blank, ih, depth]
  | within inside _ body rest =>
    have net := (Balanced.within inside .nil).foldl_opening
    simp only [List.append_nil] at net
    rw [depth, deepest_append, deepest_append, deepest_block inside, deepest_block inside, net, net,
      body, body, rest, rest]
    omega
  | aside inside _ body rest =>
    have net := (Balanced.aside inside .nil).foldl_opening
    simp only [List.append_nil] at net
    rw [depth, deepest_append, deepest_append, deepest_apart inside, deepest_apart inside, net, net,
      body, body, rest, rest]
    omega

namespace Balanced

theorem append (before : Balanced first) (behind : Balanced second) :
    Balanced (first ++ second) := by
  induction before with
  | nil => exact behind
  | line _ ih => exact .line ih
  | blank _ ih => exact .blank ih
  | within inside _ _ ih =>
    rw [List.append_assoc]
    exact .within inside ih
  | aside inside _ _ ih =>
    rw [List.append_assoc]
    exact .aside inside ih

theorem block (inside : Balanced body) : Balanced (block body) :=
  List.append_nil (Code.block body) ▸ inside.within .nil

theorem apart (inside : Balanced body) : Balanced (apart body) :=
  List.append_nil (Code.apart body) ▸ inside.aside .nil

theorem depth_append (balanced : Balanced first) :
    depth (first ++ second) = max (depth first) (depth second) := by
  rw [depth, deepest_append, balanced.foldl_opening]
  rfl

theorem depth_block (balanced : Balanced body) : depth (Code.block body) = depth body + 1 := by
  rw [depth, deepest_block balanced, balanced.deepest_eq, Nat.add_comm]

theorem depth_apart (balanced : Balanced body) : depth (Code.apart body) = depth body :=
  deepest_apart balanced 0

theorem flatMap {α : Type} {list : List α} {each : α → Code}
    (inside : ∀ entry ∈ list, Balanced (each entry)) : Balanced (list.flatMap each) := by
  induction list with
  | nil => exact .nil
  | cons entry rest ih =>
    obtain ⟨here, later⟩ := List.forall_mem_cons.mp inside
    exact here.append (ih later)

theorem depth_flatMap_le {α : Type} {list : List α} {each : α → Code}
    (inside : ∀ entry ∈ list, Balanced (each entry)) :
    opened + depth (list.flatMap each) ≤ bound ↔
      opened ≤ bound ∧ ∀ entry ∈ list, opened + depth (each entry) ≤ bound := by
  induction list with
  | nil => exact (and_iff_left (List.forall_mem_nil _)).symm
  | cons entry rest ih =>
    obtain ⟨here, later⟩ := List.forall_mem_cons.mp inside
    rw [List.flatMap_cons, here.depth_append, List.forall_mem_cons, and_left_comm, ← ih later]
    omega

end Balanced

/-! ### Lines -/

/-- Some line is written. -/
def HasLine (code : Code) : Prop :=
  ∃ text, .line text ∈ code

theorem not_hasLine_nil : ¬ HasLine [] := by
  rintro ⟨text, member⟩
  cases member

namespace HasLine

theorem line {text : String} : HasLine (.line text :: rest) :=
  ⟨text, List.mem_cons_self⟩

theorem append_left (line : HasLine first) : HasLine (first ++ second) :=
  line.imp fun _ member => List.mem_append_left second member

theorem append_right (line : HasLine second) : HasLine (first ++ second) :=
  line.imp fun _ member => List.mem_append_right first member

theorem block (line : HasLine body) : HasLine (block body) :=
  line.imp fun _ member => List.mem_append_left _ (List.mem_cons_of_mem _ member)

theorem of_blank (line : HasLine (.blank :: rest)) : HasLine rest :=
  line.imp fun _ member => by simpa using member

theorem of_append (line : HasLine (first ++ second)) : HasLine first ∨ HasLine second := by
  obtain ⟨text, member⟩ := line
  exact (List.mem_append.mp member).imp (⟨text, ·⟩) (⟨text, ·⟩)

theorem of_block (line : HasLine (Code.block body)) : HasLine body :=
  line.imp fun _ member => by simpa [Code.block] using member

theorem of_apart (line : HasLine (apart body)) : HasLine body :=
  line.imp fun _ member => by simpa [apart] using member

end HasLine

/-! ### Code without parts that count by themselves -/

/-- No more than some number of blocks are open at a time, and no level is set aside. -/
inductive Plain : Nat → Code → Prop
  | nil {bound : Nat} : Plain bound []
  | line {bound : Nat} {text : String} {rest : Code} (others : Plain bound rest) :
      Plain bound (.line text :: rest)
  | blank {bound : Nat} {rest : Code} (others : Plain bound rest) : Plain bound (.blank :: rest)
  | within {bound : Nat} {body rest : Code} (inside : Plain bound body)
      (others : Plain (bound + 1) rest) : Plain (bound + 1) (block body ++ rest)

namespace Plain

theorem balanced (plain : Plain bound code) : Balanced code := by
  induction plain with
  | nil => exact .nil
  | line _ ih => exact .line ih
  | blank _ ih => exact .blank ih
  | within _ _ body rest => exact .within body rest

theorem depth_le (plain : Plain bound code) : depth code ≤ bound := by
  induction plain with
  | nil => exact Nat.zero_le _
  | line _ ih => rwa [depth, deepest_line]
  | blank _ ih => rwa [depth, deepest_blank]
  | within inside _ body rest =>
    rw [inside.balanced.block.depth_append, inside.balanced.depth_block]
    omega

theorem mono {larger : Nat} (plain : Plain bound code) (le : bound ≤ larger) :
    Plain larger code := by
  induction plain generalizing larger with
  | nil => exact .nil
  | line _ ih => exact .line (ih le)
  | blank _ ih => exact .blank (ih le)
  | within _ _ body rest =>
    obtain ⟨larger, rfl⟩ := Nat.exists_eq_add_one_of_ne_zero (by omega : larger ≠ 0)
    exact .within (body (by omega)) (rest le)

theorem append (before : Plain bound first) (behind : Plain bound second) :
    Plain bound (first ++ second) := by
  induction before with
  | nil => exact behind
  | line _ ih => exact .line (ih behind)
  | blank _ ih => exact .blank (ih behind)
  | within inside _ _ ih =>
    rw [List.append_assoc]
    exact .within inside (ih behind)

theorem block (inside : Plain bound body) : Plain (bound + 1) (block body) :=
  List.append_nil (Code.block body) ▸ inside.within .nil

theorem flatMap {α : Type} {list : List α} {each : α → Code}
    (inside : ∀ entry ∈ list, Plain bound (each entry)) : Plain bound (list.flatMap each) := by
  induction list with
  | nil => exact .nil
  | cons entry rest ih =>
    obtain ⟨here, later⟩ := List.forall_mem_cons.mp inside
    exact here.append (ih later)

theorem flatten {list : List Code} (inside : ∀ code ∈ list, Plain bound code) :
    Plain bound list.flatten := by
  rw [← List.flatMap_id]
  exact flatMap inside

theorem map_line {α : Type} (text : α → String) (list : List α) :
    Plain bound (list.map fun entry => .line (text entry)) := by
  induction list with
  | nil => exact .nil
  | cons entry rest ih => exact .line ih

theorem lines (texts : List String) : Plain bound (lines texts) :=
  map_line id texts

theorem branch (head body : String) : Plain (bound + 1) (branch head body) :=
  .line (block (.line .nil))

theorem separated (mark : String) (texts : List String) : Plain bound (separated mark texts) := by
  fun_induction Code.separated with
  | case1 => exact .nil
  | case2 => exact .line .nil
  | case3 _ _ _ ih => exact .line ih

theorem blankIf (wanted : Bool) : Plain bound (blankIf wanted) := by
  cases wanted with
  | false => exact .nil
  | true => exact .blank .nil

end Plain

end FormatCompiler.Code
