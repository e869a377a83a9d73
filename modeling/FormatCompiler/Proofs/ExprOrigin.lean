import FormatCompiler.Proofs.StoredStrings

/-!
Expressions that were read. Their names and operators are made of characters of the text they were
read from, and they are in normal form, so nothing about them changes when they are written down and
read again.
-/

namespace FormatCompiler

set_option autoImplicit false

namespace UnaryOp

theorem normal_ofSpelling (text : String) : (ofSpelling text).normal = ofSpelling text := by
  rw [normal, spelling_ofSpelling]

theorem label_subset_spelling (op : UnaryOp) : op.label.toList ⊆ op.spelling.toList := by
  cases op <;> simp [label, spelling]

end UnaryOp

namespace Expr

theorem Escaped.subset {inner text : List Char} (escaped : Escaped inner text) : text ⊆ inner := by
  induction escaped with
  | nil => exact List.Subset.refl []
  | literal c _ ih => exact List.subset_cons_of_subset '\\' (List.cons_subset_cons c ih)
  | plain c _ _ _ ih => exact List.cons_subset_cons c ih

theorem IsString.subset {source : List Char} {text : String} (string : IsString source text) :
    text.toList ⊆ source := by
  cases string with
  | quoted escaped =>
    exact List.subset_cons_of_subset '"' (List.subset_append_of_subset_left _ escaped.subset)

theorem Closes.subset {parts : List (List Char)} {body : List Char} (closes : Closes parts body) :
    ∀ part ∈ parts, part ⊆ body := by
  induction closes with
  | closing => simp
  | part gap part spaces behind ih =>
    refine List.forall_mem_cons.mpr ⟨?_, fun other member => ?_⟩
    · exact List.subset_append_of_subset_right gap (List.subset_append_left part _)
    · exact List.subset_append_of_subset_right gap
        (List.subset_append_of_subset_right part (ih other member))

theorem IsGroup.subset {tag source : List Char} {parts : List (List Char)}
    (group : IsGroup tag parts source) : ∀ part ∈ parts, part ⊆ source := by
  cases group with
  | group gap rest spaces closes longest =>
    intro part member
    exact List.subset_cons_of_subset '(' (List.subset_append_of_subset_right gap
      (List.subset_append_of_subset_right tag (closes.subset part member)))

/-- An expression as reading a text leaves it. -/
structure ReadFrom (text : List Char) (expr : Expr) : Prop where
  strings : ∀ string ∈ expr.strings, string.toList ⊆ text
  isNormal : expr.normal = expr

theorem ReadFrom.mono {part text : List Char} {expr : Expr} (origin : ReadFrom part expr)
    (subset : part ⊆ text) : ReadFrom text expr :=
  ⟨fun string member => List.Subset.trans (origin.strings string member) subset, origin.isNormal⟩

theorem readFrom_unary {text : List Char} {op : String} {operand : Expr}
    (spelled : op.toList ⊆ text) (inner : ReadFrom text operand) :
    ReadFrom text (.unary (.ofSpelling op) operand) := by
  constructor
  · refine List.forall_mem_cons.mpr ⟨?_, inner.strings⟩
    have label := UnaryOp.label_subset_spelling (.ofSpelling op)
    rw [UnaryOp.spelling_ofSpelling] at label
    exact List.Subset.trans label spelled
  · rw [normal, UnaryOp.normal_ofSpelling, inner.isNormal]

theorem readFrom_binary {text : List Char} {op : String} {lhs rhs : Expr}
    (spelled : op.toList ⊆ text) (left : ReadFrom text lhs) (right : ReadFrom text rhs) :
    ReadFrom text (.binary op lhs rhs) := by
  constructor
  · exact List.forall_mem_cons.mpr ⟨spelled,
      List.forall_mem_append.mpr ⟨left.strings, right.strings⟩⟩
  · rw [normal, left.isNormal, right.isNormal]

theorem Derives.readFrom {source : List Char} {expr : Expr} (derives : Derives source expr) :
    ReadFrom source expr := by
  induction derives with
  | int group isAtom literal => exact ⟨by simp [Expr.strings], rfl⟩
  | bool value group => exact ⟨by simp [Expr.strings], rfl⟩
  | name group string =>
    have text := List.Subset.trans string.subset (group.subset _ (by simp))
    exact ⟨by simpa [Expr.strings] using text, rfl⟩
  | unary group string _ ih =>
    have spelled := List.Subset.trans string.subset (group.subset _ (by simp))
    exact readFrom_unary spelled (ih.mono (group.subset _ (by simp)))
  | binary group string _ _ left right =>
    have spelled := List.Subset.trans string.subset (group.subset _ (by simp))
    exact readFrom_binary spelled (left.mono (group.subset _ (by simp)))
      (right.mono (group.subset _ (by simp)))

/-- Whatever text an expression was read from. -/
theorem readFrom_of_read {text : List Char} {expr : Expr} (found : read text = .ok expr) :
    ReadFrom text expr := by
  obtain ⟨before, source, after, -, -, rfl, derives⟩ := derives_of_read found
  exact derives.readFrom.mono
    (List.subset_append_of_subset_right before (List.subset_append_left source after))

end Expr

end FormatCompiler
