import FormatCompiler.Expr.Basic
import FormatCompiler.Proofs.ExprGrammar

/-!
The text of an expression, read again. Every name and every operator comes back whatever its
characters are; only an operator whose spelling is that of another one comes back as the other.
-/

namespace FormatCompiler

set_option autoImplicit false

namespace UnaryOp

/-- The operator that reading finds for the spelling of an operator. -/
def normal (op : UnaryOp) : UnaryOp :=
  .ofSpelling op.spelling

theorem append_of_marked {mark text rest : String} (found : marked mark text = some rest) :
    mark ++ rest = text := by
  obtain ⟨left, filtered, rfl⟩ := Option.map_eq_some_iff.mp found
  have dropped := (Option.filter_eq_some_iff.mp filtered).1
  unfold Name.dropPrefix at dropped
  split at dropped
  · next starts =>
    obtain ⟨tail, shape⟩ := List.isPrefixOf_iff_prefix.mp starts
    have same : tail = left := by simpa [← shape] using dropped
    rw [← String.toList_inj, String.toList_append, String.toList_ofList, ← same, shape]
  · simp at dropped

/-- Decoding a spelling never changes it. -/
theorem spelling_ofSpelling (text : String) : (ofSpelling text).spelling = text := by
  unfold ofSpelling
  split
  · next type found => exact append_of_marked found
  · split
    · next name found => exact append_of_marked found
    · rfl

theorem spelling_normal (op : UnaryOp) : op.normal.spelling = op.spelling :=
  spelling_ofSpelling op.spelling

/-- The text an operator carries besides its mark. -/
def label : UnaryOp → String
  | .sign symbol => symbol
  | .cast type => type
  | .field name => name

theorem feed_mem_spelling (op : UnaryOp) :
    '\n' ∈ op.spelling.toList ↔ '\n' ∈ op.label.toList := by
  cases op <;> simp [spelling, label, castMark, fieldMark]

/-- An operator whose spelling is that of another one. -/
def IsDisguised : UnaryOp → Prop
  | .sign symbol => ∃ rest, rest ≠ "" ∧ (symbol = castMark ++ rest ∨ symbol = fieldMark ++ rest)
  | .cast type => type = ""
  | .field name => name = ""

theorem marked_eq_some_iff {mark text rest : String} :
    marked mark text = some rest ↔ rest ≠ "" ∧ mark ++ rest = text := by
  constructor
  · intro found
    refine ⟨?_, append_of_marked found⟩
    obtain ⟨left, filtered, rfl⟩ := Option.map_eq_some_iff.mp found
    simpa using (Option.filter_eq_some_iff.mp filtered).2
  · rintro ⟨nonempty, rfl⟩
    have kept : Name.dropPrefix mark.toList (mark ++ rest).toList = some rest.toList := by
      simp [Name.dropPrefix]
    rw [marked, kept, Option.filter_some, if_pos (by simpa using nonempty), Option.map_some,
      String.ofList_toList]

/-- The two marks differ, so no text starts with both. -/
theorem castMark_append_ne (front back : String) : castMark ++ front ≠ fieldMark ++ back := by
  intro same
  have letters := congrArg String.toList same
  simp [castMark, fieldMark] at letters

theorem ofSpelling_cast {type : String} (nonempty : type ≠ "") :
    ofSpelling (castMark ++ type) = .cast type := by
  rw [ofSpelling, marked_eq_some_iff.mpr ⟨nonempty, rfl⟩]

theorem ofSpelling_field {name : String} (nonempty : name ≠ "") :
    ofSpelling (fieldMark ++ name) = .field name := by
  have other : marked castMark (fieldMark ++ name) = none := by
    rw [Option.eq_none_iff_forall_ne_some]
    intro type found
    exact castMark_append_ne type name (marked_eq_some_iff.mp found).2
  rw [ofSpelling, other, marked_eq_some_iff.mpr ⟨nonempty, rfl⟩]

theorem ofSpelling_sign {symbol : String} (plain : ¬ (UnaryOp.sign symbol).IsDisguised) :
    ofSpelling symbol = .sign symbol := by
  unfold ofSpelling
  split
  · next type found =>
    obtain ⟨nonempty, same⟩ := marked_eq_some_iff.mp found
    exact absurd ⟨type, nonempty, .inl same.symm⟩ plain
  · split
    · next name found =>
      obtain ⟨nonempty, same⟩ := marked_eq_some_iff.mp found
      exact absurd ⟨name, nonempty, .inr same.symm⟩ plain
    · rfl

/-- Reading finds the same operator unless another one has its spelling. -/
theorem normal_eq_iff (op : UnaryOp) : op.normal = op ↔ ¬ op.IsDisguised := by
  cases op with
  | sign symbol =>
    refine ⟨?_, ofSpelling_sign⟩
    rintro same ⟨rest, nonempty, rfl | rfl⟩
    · have found := (ofSpelling_cast nonempty).symm.trans same
      cases found
    · have found := (ofSpelling_field nonempty).symm.trans same
      cases found
  | cast type =>
    refine ⟨?_, ofSpelling_cast⟩
    rintro same rfl
    have found : normal (.cast "") = .sign "__cast__:" := rfl
    rw [found] at same
    cases same
  | field name =>
    refine ⟨?_, ofSpelling_field⟩
    rintro same rfl
    have found : normal (.field "") = .sign "__attr__:" := rfl
    rw [found] at same
    cases same

end UnaryOp

namespace Expr

/-- The expression that is read from the text of an expression. -/
def normal : Expr → Expr
  | .int value => .int value
  | .bool value => .bool value
  | .name id => .name id
  | .unary op operand => .unary op.normal operand.normal
  | .binary op lhs rhs => .binary op lhs.normal rhs.normal

theorem text_int (value : Int64) :
    text (.int value) = "(int ".toList ++ (Text.showInt64 value).toList ++ [')'] := rfl

theorem text_bool (value : Bool) :
    text (.bool value) = "(bool ".toList ++ (if value then "true" else "false").toList ++ [')'] :=
  rfl

theorem text_name (id : String) :
    text (.name id) = "(name ".toList ++ Text.quote id.toList ++ [')'] := rfl

theorem text_unary (op : UnaryOp) (operand : Expr) :
    text (.unary op operand) =
      "(un ".toList ++ Text.quote op.spelling.toList ++ [' '] ++ text operand ++ [')'] := rfl

theorem text_binary (op : String) (lhs rhs : Expr) :
    text (.binary op lhs rhs) =
      "(bin ".toList ++ Text.quote op.toList ++ [' '] ++ text lhs ++ [' '] ++ text rhs ++ [')'] :=
  rfl

theorem text_normal (expr : Expr) : expr.normal.text = expr.text := by
  induction expr with
  | int value => rfl
  | bool value => rfl
  | name id => rfl
  | unary op operand ih => rw [normal, text_unary, text_unary, ih, UnaryOp.spelling_normal]
  | binary op lhs rhs left right => rw [normal, text_binary, text_binary, left, right]

/-! ### Reading -/

theorem escaped_escape (text : List Char) : Escaped (Text.escape text) text := by
  induction text with
  | nil => exact .nil
  | cons c rest ih =>
    rw [Text.escape]
    split
    · exact .literal c ih
    · next ordinary =>
      rw [not_or] at ordinary
      exact .plain c ordinary.1 ordinary.2 ih

theorem isString_quote (text : String) : IsString (Text.quote text.toList) text :=
  .quoted (escaped_escape text.toList)

/-- A group whose parts follow each other with one space before each. -/
theorem isGroup_spaced (tag part : List Char) (parts : List (List Char)) :
    IsGroup tag (part :: parts)
      ('(' :: (tag ++ ((part :: parts).flatMap (' ' :: ·) ++ [')']))) := by
  have closes : ∀ parts, Closes parts (parts.flatMap (' ' :: ·) ++ [')']) := by
    intro parts
    induction parts with
    | nil => exact .closing [] (by simp [IsGap])
    | cons part parts ih => simpa using Closes.part [' '] part (by simp [IsGap]) ih
  exact .group [] _ (by simp [IsGap]) (closes (part :: parts)) (by simp)

theorem isLiteral_showInt64 (value : Int64) :
    Text.IsLiteral (Text.showInt64 value).toList value :=
  Text.readInt64_eq_some_iff.mp (Text.readInt64_showInt64 value)

/-- The text of an expression is one of the texts of its normal form. -/
theorem derives_text (expr : Expr) : Derives expr.text expr.normal := by
  induction expr with
  | int value =>
    have literal := isLiteral_showInt64 value
    refine .int ?_ (isAtom_of_isLiteral literal) literal
    simpa [text_int] using isGroup_spaced "int".toList (Text.showInt64 value).toList []
  | bool value =>
    refine .bool value ?_
    simpa [text_bool] using
      isGroup_spaced "bool".toList (if value then "true" else "false").toList []
  | name id =>
    refine .name ?_ (isString_quote id)
    simpa [text_name] using isGroup_spaced "name".toList (Text.quote id.toList) []
  | unary op operand ih =>
    refine .unary ?_ (isString_quote op.spelling) ih
    simpa [text_unary] using
      isGroup_spaced "un".toList (Text.quote op.spelling.toList) [operand.text]
  | binary op lhs rhs left right =>
    refine .binary ?_ (isString_quote op) left right
    simpa [text_binary] using
      isGroup_spaced "bin".toList (Text.quote op.toList) [lhs.text, rhs.text]

/-- Every expression is read back from its text, up to the operators that share a spelling. -/
theorem read_text (expr : Expr) : read expr.text = .ok expr.normal := by
  have gap : IsGap [] := by simp [IsGap]
  simpa using read_of_derives gap gap expr.derives_text

theorem normal_eq_self_iff (expr : Expr) :
    expr.normal = expr ↔
      ∀ op operand, Expr.unary op operand ∈ expr.nodes → ¬ op.IsDisguised := by
  induction expr with
  | int value => simp [normal, nodes]
  | bool value => simp [normal, nodes]
  | name id => simp [normal, nodes]
  | unary op operand ih =>
    simp only [normal, nodes, unary.injEq, op.normal_eq_iff, ih, List.mem_cons]
    constructor
    · rintro ⟨first, others⟩ found inner (⟨rfl, -⟩ | member)
      · exact first
      · exact others found inner member
    · intro all
      refine ⟨all op operand (.inl ⟨rfl, rfl⟩), ?_⟩
      exact fun found inner member => all found inner (.inr member)
  | binary op lhs rhs left right =>
    simp only [normal, nodes, binary.injEq, true_and, left, right, List.mem_cons, List.mem_append]
    grind

/-- What becomes of an expression in its text, whatever its numbers, names and operators are: it is
read back with the operators its spellings stand for, and so it has the same text. It is read back
unchanged exactly when no operator has the spelling of another one. -/
theorem read_text_determined (expr : Expr) :
    read expr.text = .ok expr.normal ∧ expr.normal.text = expr.text ∧
      (expr.normal = expr ↔
        ∀ op operand, Expr.unary op operand ∈ expr.nodes → ¬ op.IsDisguised) :=
  ⟨expr.read_text, expr.text_normal, expr.normal_eq_self_iff⟩

end Expr

end FormatCompiler
