import FormatCompiler.Proofs.ExprLexing
import FormatCompiler.Proofs.ScopeEmission
import FormatCompiler.Proofs.SupportedScope
import FormatCompiler.Proofs.TargetGrouping
import FormatCompiler.Target.CppStl

/-!
Minus signs next to each other in the texts of expressions. Two of them are an operator of their own
in the `cpp_stl` target and start a comment in the `lua` targets. A sign and its operand are written
without anything between them and a negative literal has no parentheses, so that is where they meet.
-/

namespace FormatCompiler

set_option autoImplicit false

/-! ### Texts with two minus signs in a row -/

/-- Two minus signs stand next to each other. -/
def Doubled (text : List Char) : Prop :=
  ['-', '-'] <:+: text

instance (text : List Char) : Decidable (Doubled text) :=
  inferInstanceAs (Decidable (_ <:+: _))

namespace Doubled

variable {first second text left right op : List Char}

/-- Two minus signs of a joined text stand in one of the parts, or on both sides of the joint. -/
theorem append_iff : Doubled (first ++ second) ↔
    Doubled first ∨ Doubled second ∨ first.getLast? = some '-' ∧ second.head? = some '-' := by
  unfold Doubled
  induction first with
  | nil => simp
  | cons c rest ih =>
    rw [List.cons_append, List.infix_cons_iff, List.infix_cons_iff, ih, List.cons_prefix_cons,
      List.cons_prefix_cons]
    cases rest with
    | nil => cases second <;> grind
    | cons d more => grind

theorem not_of_not_mem (none : '-' ∉ text) : ¬ Doubled text :=
  fun doubled => none (doubled.mem List.mem_cons_self)

theorem cons_iff {c : Char} (other : c ≠ '-') : Doubled (c :: text) ↔ Doubled text := by
  rw [Doubled, List.infix_cons_iff, List.cons_prefix_cons]
  exact or_iff_right fun same => other same.1.symm

theorem minus_iff : Doubled ('-' :: text) ↔ text.head? = some '-' ∨ Doubled text := by
  have alone : ¬ Doubled ['-'] := by decide
  rw [← List.singleton_append, append_iff]
  simp only [alone, false_or, List.getLast?_singleton, true_and]
  exact or_comm

/-- A character other than a minus sign keeps the texts around it apart. -/
theorem between_iff {c : Char} (other : c ≠ '-') :
    Doubled (first ++ c :: second) ↔ Doubled first ∨ Doubled second := by
  rw [append_iff, cons_iff other, List.head?_cons, Option.some.injEq]
  simp only [other, and_false, or_false]

theorem group_iff : Doubled ('(' :: text ++ [')']) ↔ Doubled text := by
  have closing : ¬ Doubled [] := by decide
  rw [List.cons_append, cons_iff (by decide), between_iff (by decide)]
  exact or_iff_left closing

theorem operation_iff : Doubled (left ++ ' ' :: (op ++ ' ' :: right)) ↔
    Doubled left ∨ Doubled op ∨ Doubled right := by
  rw [between_iff (by decide), between_iff (by decide)]

end Doubled

/-- A text ends, and with something else than a minus sign. -/
def EndsPlain (text : List Char) : Prop :=
  ∃ c, text.getLast? = some c ∧ c ≠ '-'

namespace EndsPlain

variable {first second : List Char}

theorem of_not_mem (inhabited : first ≠ []) (none : '-' ∉ first) : EndsPlain first :=
  ⟨first.getLast inhabited, List.getLast?_eq_some_getLast inhabited,
    fun same => none (same ▸ List.getLast_mem inhabited)⟩

theorem append_left (ending : EndsPlain second) (first : List Char) :
    EndsPlain (first ++ second) := by
  obtain ⟨c, last, other⟩ := ending
  exact ⟨c, by rw [List.getLast?_append, last, Option.some_or], other⟩

theorem doubled_append_iff (ending : EndsPlain first) :
    Doubled (first ++ second) ↔ Doubled first ∨ Doubled second := by
  obtain ⟨c, last, other⟩ := ending
  rw [Doubled.append_iff, last, Option.some.injEq]
  simp only [other, false_and, or_false]

theorem closed (first : List Char) : EndsPlain (first ++ [')']) :=
  append_left (.of_not_mem (List.cons_ne_nil _ _) (by decide)) first

theorem head_append (ending : EndsPlain first) : (first ++ second).head? = first.head? := by
  obtain ⟨c, last, -⟩ := ending
  cases first with
  | nil => cases last
  | cons d rest => rfl

end EndsPlain

/-! ### Expressions whose texts have them -/

namespace Expr

/-- Whether the text of an operand starts with a minus sign: that of a negative literal, or of a
field of one, or of one under a cast that is not shown. -/
def startsWithMinus (castsShown : Bool) : Expr → Bool
  | .int value => decide (value.toInt < 0)
  | .unary (.cast _) operand => !castsShown && operand.startsWithMinus castsShown
  | .unary (.field _) operand => operand.startsWithMinus castsShown
  | _ => false

/-- Whether a minus sign has an operand whose text starts with one. -/
def negatesMinus (castsShown : Bool) : Expr → Bool
  | .int _ | .bool _ | .name _ => false
  | .unary op operand =>
    op == .sign "-" && operand.startsWithMinus castsShown || operand.negatesMinus castsShown
  | .binary _ lhs rhs => lhs.negatesMinus castsShown || rhs.negatesMinus castsShown

/-- The types that an expression casts to. -/
def castTypes : Expr → List String
  | .int _ | .bool _ | .name _ => []
  | .unary (.cast type) operand => type :: operand.castTypes
  | .unary _ operand => operand.castTypes
  | .binary _ lhs rhs => lhs.castTypes ++ rhs.castTypes

end Expr

/-- A letter or an underscore, then letters, digits and underscores. -/
def isIdentifier (id : String) : Bool :=
  !id.isEmpty && !(id.toList.head?.any Char.isDigit) && id.toList.all Grouping.isNameChar

/-- The names, the fields and the segments of the types in an expression are identifiers. -/
def Expr.isNamed : Expr → Bool
  | .int _ | .bool _ => true
  | .name id => isIdentifier id
  | .unary (.sign _) operand => operand.isNamed
  | .unary (.cast type) operand => (Name.segments type).all isIdentifier && operand.isNamed
  | .unary (.field id) operand => isIdentifier id && operand.isNamed
  | .binary _ lhs rhs => lhs.isNamed && rhs.isNamed

/-- A text with no minus sign that is not empty. -/
structure IsPlain (text : String) : Prop where
  inhabited : text.toList ≠ []
  plain : '-' ∉ text.toList

instance (text : String) : Decidable (IsPlain text) :=
  decidable_of_iff (text.toList ≠ [] ∧ '-' ∉ text.toList)
    ⟨fun parts => ⟨parts.1, parts.2⟩, fun isPlain => ⟨isPlain.inhabited, isPlain.plain⟩⟩

theorem IsPlain.append_left {text : String} (isPlain : IsPlain text) {before : String}
    (plain : '-' ∉ before.toList) : IsPlain (before ++ text) := by
  refine ⟨by simp [isPlain.inhabited], ?_⟩
  rw [String.toList_append, List.mem_append]
  exact not_or.mpr ⟨plain, isPlain.plain⟩

theorem IsPlain.append_right {text : String} (isPlain : IsPlain text) {after : String}
    (plain : '-' ∉ after.toList) : IsPlain (text ++ after) := by
  refine ⟨by simp [isPlain.inhabited], ?_⟩
  rw [String.toList_append, List.mem_append]
  exact not_or.mpr ⟨isPlain.plain, plain⟩

theorem IsPlain.endsPlain {text : String} (isPlain : IsPlain text) : EndsPlain text.toList :=
  .of_not_mem isPlain.inhabited isPlain.plain

theorem IsPlain.head_ne {text : String} (isPlain : IsPlain text) :
    text.toList.head? ≠ some '-' :=
  fun starts => isPlain.plain (List.mem_of_head? starts)

theorem isPlain_of_isIdentifier {id : String} (named : isIdentifier id) : IsPlain id := by
  simp only [isIdentifier, Bool.and_eq_true, Bool.not_eq_true'] at named
  obtain ⟨⟨nonempty, -⟩, nameChars⟩ := named
  constructor
  · intro empty
    rw [String.toList_eq_nil_iff.mp empty] at nonempty
    cases nonempty
  · intro minus
    exact absurd (List.all_eq_true.mp nameChars '-' minus) (by decide)

/-- A spelling with minus signs in its operators and at most before the fields of structures. A cast
either leaves no trace or puts its operand in parentheses. -/
structure Spelling.KeepsApart (spelling : Spelling) (castsShown : Bool) : Prop where
  truth : ∀ value, IsPlain (spelling.truth value)
  name : ∀ id, isIdentifier id → IsPlain (spelling.name id)
  binary : ∀ op ∈ Subset.binaryOperators, ¬ Doubled (spelling.binaryOf op).toList
  minus : spelling.unary "-" = "-"
  unary : ∀ op ∈ Subset.unaryOperators, op ≠ "-" → IsPlain (spelling.unary (Operator.symbol op))
  hidden : castsShown = false → ∀ type, spelling.cast type = ("", "")
  shown : castsShown = true → ∀ type, (spelling.cast type).2 = ")" ∧
    EndsPlain (spelling.cast type).1.toList ∧ (spelling.cast type).1.toList.head? ≠ some '-'
  field : ∀ id, isIdentifier id → (spelling.field id).1 = "" ∧
    EndsPlain (spelling.field id).2.toList ∧ ¬ Doubled (spelling.field id).2.toList

theorem Text.showInt64_minus (value : Int64) :
    EndsPlain (showInt64 value).toList ∧ ¬ Doubled (showInt64 value).toList ∧
      ((showInt64 value).toList.head? = some '-' ↔ value.toInt < 0) := by
  have digits : ∀ n, '-' ∉ (showNat n).toList :=
    fun n member => absurd (isDigit_of_mem_showNat member) (by decide)
  have ending : ∀ n, EndsPlain (showNat n).toList :=
    fun n => .of_not_mem (showNat_ne_nil n) (digits n)
  unfold showInt64
  cases value.toInt with
  | ofNat magnitude =>
    refine ⟨ending _, Doubled.not_of_not_mem (digits _), iff_of_false ?_ ?_⟩
    · exact fun starts => digits _ (List.mem_of_head? starts)
    · exact Int.not_lt.mpr (Int.natCast_nonneg magnitude)
  | negSucc magnitude =>
    have text : (showInt (.negSucc magnitude)).toList =
        '-' :: (showNat (magnitude + 1)).toList := by
      simp [showInt]
    rw [text]
    refine ⟨(ending _).append_left ['-'], ?_, iff_of_true rfl (Int.negSucc_lt_zero magnitude)⟩
    rw [Doubled.minus_iff]
    exact not_or.mpr ⟨fun starts => digits _ (List.mem_of_head? starts),
      Doubled.not_of_not_mem (digits _)⟩

namespace Expr

theorem chars_cast (spelling : Spelling) (around : Nat) (type : String) (operand : Expr) :
    (Expr.unary (.cast type) operand).chars spelling around =
      (spelling.cast type).1.toList ++ operand.chars spelling Operator.unaryStrength ++
        (spelling.cast type).2.toList := by
  simp [chars, pieces, Piece.chars, Piece.text]

theorem chars_field (spelling : Spelling) (around : Nat) (id : String) (operand : Expr) :
    (Expr.unary (.field id) operand).chars spelling around =
      (spelling.field id).1.toList ++ operand.chars spelling Operator.unaryStrength ++
        (spelling.field id).2.toList := by
  simp [chars, pieces, Piece.chars, Piece.text]

/-- Two minus signs stand in a row where one has an operand that starts with one, or in a cast. -/
def Doubles (spelling : Spelling) (castsShown : Bool) (expr : Expr) : Prop :=
  expr.negatesMinus castsShown = true ∨
    castsShown = true ∧ ∃ type ∈ expr.castTypes, Doubled (spelling.cast type).1.toList

/-- What the texts of an expression are like for those around them, and that two minus signs stand
in a row in them just where they are expected. -/
structure MinusLaws (spelling : Spelling) (castsShown : Bool) (expr : Expr) : Prop where
  ending : ∀ around, EndsPlain (expr.chars spelling around)
  operand : (expr.chars spelling Operator.unaryStrength).head? = some '-' ↔
    expr.startsWithMinus castsShown = true
  doubled : ∀ around, Doubled (expr.chars spelling around) ↔ expr.Doubles spelling castsShown

section

variable {spelling : Spelling} {castsShown : Bool}

theorem minusLaws_of_isPlain {expr : Expr} {text : String} (isPlain : IsPlain text)
    (spelled : ∀ around, expr.chars spelling around = text.toList)
    (starts : expr.startsWithMinus castsShown = false)
    (doubles : ¬ expr.Doubles spelling castsShown) : MinusLaws spelling castsShown expr where
  ending around := by
    rw [spelled]
    exact isPlain.endsPlain
  operand := by
    rw [spelled, starts]
    exact iff_of_false isPlain.head_ne Bool.false_ne_true
  doubled around := by
    rw [spelled]
    exact iff_of_false (Doubled.not_of_not_mem isPlain.plain) doubles

variable (apart : spelling.KeepsApart castsShown)

include apart

theorem minusLaws_sign {op : String} {operand : Expr} (known : op ∈ Subset.unaryOperators)
    (laws : MinusLaws spelling castsShown operand) :
    MinusLaws spelling castsShown (.unary (.sign op) operand) where
  ending around := by
    rw [chars_sign]
    exact EndsPlain.closed _
  operand := by
    rw [chars_sign]
    exact iff_of_false (by simp) Bool.false_ne_true
  doubled around := by
    have inside := laws.doubled Operator.unaryStrength
    rw [chars_sign, Doubled.group_iff]
    by_cases minus : op = "-"
    · subst minus
      change Doubled ((spelling.unary "-").toList ++ _) ↔ _
      rw [apart.minus]
      change Doubled ('-' :: operand.chars spelling Operator.unaryStrength) ↔ _
      rw [Doubled.minus_iff, laws.operand, inside]
      simp [Doubles, negatesMinus, castTypes, or_assoc]
    · rw [(apart.unary op known minus).endsPlain.doubled_append_iff, inside]
      have plain := Doubled.not_of_not_mem (apart.unary op known minus).plain
      simp [Doubles, negatesMinus, castTypes, plain, minus]

theorem minusLaws_cast (type : String) {operand : Expr}
    (laws : MinusLaws spelling castsShown operand) :
    MinusLaws spelling castsShown (.unary (.cast type) operand) := by
  cases castsShown with
  | false =>
    have same : ∀ around, (Expr.unary (.cast type) operand).chars spelling around =
        operand.chars spelling Operator.unaryStrength := by
      intro around
      simp [chars_cast, apart.hidden rfl type]
    refine ⟨fun around => same around ▸ laws.ending _, ?_, fun around => ?_⟩
    · rw [same, laws.operand]
      simp [startsWithMinus]
    · rw [same, laws.doubled]
      simp [Doubles, negatesMinus]
  | true =>
    obtain ⟨closing, ending, head⟩ := apart.shown rfl type
    have text : ∀ around, (Expr.unary (.cast type) operand).chars spelling around =
        (spelling.cast type).1.toList ++
          (operand.chars spelling Operator.unaryStrength ++ [')']) := by
      intro around
      rw [chars_cast, closing, List.append_assoc]
      rfl
    refine ⟨fun around => ?_, ?_, fun around => ?_⟩
    · rw [text]
      exact EndsPlain.append_left (EndsPlain.closed _) _
    · rw [text, ending.head_append]
      exact iff_of_false head Bool.false_ne_true
    · rw [text, ending.doubled_append_iff, Doubled.between_iff (by decide), laws.doubled]
      have closed : ¬ Doubled [] := by decide
      have unsigned : (UnaryOp.cast type == .sign "-") = false := by simp
      simp only [Doubles, negatesMinus, castTypes, closed, or_false, unsigned, Bool.false_and,
        Bool.false_or, true_and, List.mem_cons, exists_eq_or_imp]
      exact or_left_comm

theorem minusLaws_field {id : String} {operand : Expr} (named : isIdentifier id)
    (laws : MinusLaws spelling castsShown operand) :
    MinusLaws spelling castsShown (.unary (.field id) operand) := by
  obtain ⟨opening, ending, single⟩ := apart.field id named
  have text : ∀ around, (Expr.unary (.field id) operand).chars spelling around =
      operand.chars spelling Operator.unaryStrength ++ (spelling.field id).2.toList := by
    intro around
    rw [chars_field, opening]
    rfl
  refine ⟨fun around => ?_, ?_, fun around => ?_⟩
  · rw [text]
    exact ending.append_left _
  · rw [text, (laws.ending _).head_append, laws.operand]
    rfl
  · rw [text, (laws.ending _).doubled_append_iff, laws.doubled]
    simp [Doubles, negatesMinus, castTypes, single]

theorem minusLaws_binary {op : String} {lhs rhs : Expr} (known : op ∈ Subset.binaryOperators)
    (left : MinusLaws spelling castsShown lhs) (right : MinusLaws spelling castsShown rhs) :
    MinusLaws spelling castsShown (.binary op lhs rhs) := by
  have doubles : (Expr.binary op lhs rhs).Doubles spelling castsShown ↔
      lhs.Doubles spelling castsShown ∨ rhs.Doubles spelling castsShown := by
    simp only [Doubles, negatesMinus, castTypes, Bool.or_eq_true, List.mem_append, or_and_right,
      exists_or, and_or_left]
    exact or_or_or_comm
  have single := apart.binary op known
  refine ⟨fun around => ?_, ?_, fun around => ?_⟩
  · rw [chars_binary]
    dsimp only
    split
    · exact EndsPlain.closed _
    · split
      · exact ((((right.ending _).append_left [' ']).append_left _).append_left [' ']).append_left _
      · exact EndsPlain.closed _
  · -- as the operand of a sign a binary operation is always in parentheses
    rw [chars_binary]
    dsimp only
    rw [Operator.isBare_unaryStrength]
    split
    · exact iff_of_false (by simp) Bool.false_ne_true
    · exact iff_of_false (by simp) Bool.false_ne_true
  · rw [chars_binary, doubles]
    dsimp only
    split
    · rw [Doubled.group_iff, Doubled.operation_iff, Doubled.group_iff, Doubled.group_iff,
        left.doubled, right.doubled]
      simp only [single, false_or]
    · split
      · rw [Doubled.operation_iff, left.doubled, right.doubled]
        simp only [single, false_or]
      · rw [Doubled.group_iff, Doubled.operation_iff, left.doubled, right.doubled]
        simp only [single, false_or]

theorem minusLaws {known : String → Prop} (expr : Expr) (supported : expr.IsSupported known)
    (named : expr.isNamed) : MinusLaws spelling castsShown expr := by
  induction expr with
  | int value =>
    obtain ⟨ending, single, head⟩ := Text.showInt64_minus value
    refine ⟨fun around => ?_, ?_, fun around => ?_⟩
    · rwa [chars_int]
    · rw [chars_int, head]
      simp [startsWithMinus]
    · rw [chars_int]
      exact iff_of_false single (by simp [Doubles, negatesMinus, castTypes])
  | bool value =>
    exact minusLaws_of_isPlain (apart.truth value) (fun around => chars_bool spelling around value)
      rfl (by simp [Doubles, negatesMinus, castTypes])
  | name id =>
    exact minusLaws_of_isPlain (apart.name id named) (fun around => chars_name spelling around id)
      rfl (by simp [Doubles, negatesMinus, castTypes])
  | unary op operand ih =>
    cases op with
    | sign symbol => exact minusLaws_sign apart supported.1 (ih supported.2 named)
    | cast type =>
      have parts := Bool.and_eq_true_iff.mp named
      exact minusLaws_cast apart type (ih supported parts.2)
    | field id =>
      have parts := Bool.and_eq_true_iff.mp named
      exact minusLaws_field apart parts.1 (ih supported parts.2)
  | binary op lhs rhs lhsIH rhsIH =>
    have parts := Bool.and_eq_true_iff.mp named
    exact minusLaws_binary apart supported.1 (lhsIH supported.2.1 parts.1)
      (rhsIH supported.2.2 parts.2)

end

theorem segments_of_isNamed {type : String} (expr : Expr) (named : expr.isNamed)
    (cast : type ∈ expr.castTypes) : (Name.segments type).all isIdentifier := by
  induction expr with
  | int value => cases cast
  | bool value => cases cast
  | name id => cases cast
  | unary op operand ih =>
    cases op with
    | sign symbol => exact ih named cast
    | cast shown =>
      have parts := Bool.and_eq_true_iff.mp named
      rcases List.mem_cons.mp cast with rfl | cast
      · exact parts.1
      · exact ih parts.2 cast
    | field id => exact ih (Bool.and_eq_true_iff.mp named).2 cast
  | binary op lhs rhs lhsIH rhsIH =>
    have parts := Bool.and_eq_true_iff.mp named
    rcases List.mem_append.mp cast with cast | cast
    · exact lhsIH parts.1 cast
    · exact rhsIH parts.2 cast

end Expr

/-! ### Names without minus signs -/

namespace Name

theorem mem_of_mem_cut {held path piece : List Char} (member : piece ∈ cut held path) {c : Char}
    (mem : c ∈ piece) : c ∈ held ∨ c ∈ path := by
  induction held, path using cut.induct with
  | case1 held rest ih =>
    rw [cut] at member
    rcases List.mem_cons.mp member with rfl | member
    · exact .inl (List.mem_reverse.mp mem)
    · have inside := (ih member).resolve_left List.not_mem_nil
      exact .inr (List.mem_cons_of_mem _ (List.mem_cons_of_mem _ inside))
  | case2 held d rest _ ih =>
    rw [cut] at member
    · rcases ih member with mem | mem
      · rcases List.mem_cons.mp mem with rfl | mem
        · exact .inr List.mem_cons_self
        · exact .inl mem
      · exact .inr (List.mem_cons_of_mem _ mem)
    · assumption
  | case3 held =>
    rw [cut, List.mem_singleton] at member
    subst member
    exact .inl (List.mem_reverse.mp mem)

theorem mem_of_mem_segments {path segment : String} (member : segment ∈ segments path) {c : Char}
    (mem : c ∈ segment.toList) : c ∈ path.toList := by
  unfold segments at member
  split at member
  · cases member
  · obtain ⟨piece, isPiece, rfl⟩ := List.mem_map.mp member
    rw [String.toList_ofList] at mem
    simpa using mem_of_mem_cut isPiece mem

theorem mem_of_mem_short {path : String} {c : Char} (mem : c ∈ (short path).toList) :
    c ∈ path.toList := by
  unfold short at mem
  split at mem
  · next outer last found =>
    rw [cutLast_eq found]
    rw [String.toList_ofList] at mem
    simp [mem]
  · exact mem

end Name

namespace Target

/-- The class that a cast to a type is to. -/
def CppStl.castClass (scope : Scope) (type : String) : String :=
  match scope.module.scopeNamed? type with
  | some path => structureClass scope (.nested path) false
  | none => externalClass type

theorem CppStl.not_mem_qualified {segments : List String}
    (none : ∀ segment ∈ segments, '-' ∉ segment.toList) : '-' ∉ (qualified segments).toList := by
  unfold qualified
  induction segments with
  | nil => simp
  | cons first rest ih =>
    have parts := List.forall_mem_cons.mp none
    have marked : '-' ∉ (first ++ "_t").toList := by simp [parts.1]
    cases rest with
    | nil => simpa using marked
    | cons second more =>
      rw [List.map_cons, List.map_cons, String.intercalate_cons_cons]
      simpa [parts.1] using ih parts.2

theorem CppStl.not_mem_castClass {scope : Scope} {type : String}
    (named : (Name.segments type).all isIdentifier) (root : '-' ∉ scope.module.root.name.toList)
    (paths : ∀ path ∈ scope.module.paths, '-' ∉ path.toList) :
    '-' ∉ (castClass scope type).toList := by
  unfold castClass
  split
  · next path found =>
    have plain := paths path (Module.mem_paths_of_scopeNamed found)
    dsimp only [structureClass]
    split
    · have short : '-' ∉ (Name.short path).toList := fun mem => plain (Name.mem_of_mem_short mem)
      simp [short]
    · apply not_mem_qualified
      rw [List.forall_mem_cons]
      exact ⟨root, fun segment member mem => plain (Name.mem_of_mem_segments member mem)⟩
  · unfold externalClass
    split
    · decide
    · apply not_mem_qualified
      exact fun segment member =>
        (isPlain_of_isIdentifier (List.all_eq_true.mp named segment member)).plain

theorem CppStl.cast_chars (scope : Scope) (type : String) :
    ((spelling scope).cast type).1.toList =
      "static_cast<".toList ++ ((castClass scope type).toList ++ "*>(".toList) := by
  change ("static_cast<" ++ castClass scope type ++ "*>(").toList = _
  simp

theorem CppStl.doubled_cast_iff (scope : Scope) (type : String) :
    Doubled ((spelling scope).cast type).1.toList ↔ Doubled (castClass scope type).toList := by
  have opening : IsPlain "static_cast<" := by decide
  have before := Doubled.not_of_not_mem opening.plain
  have after : ¬ Doubled ">(".toList := by decide
  rw [cast_chars, opening.endsPlain.doubled_append_iff]
  -- the star keeps the class apart from what follows, whatever its name ends with
  change _ ∨ Doubled (_ ++ '*' :: ">(".toList) ↔ _
  rw [Doubled.between_iff (by decide)]
  simp only [before, after, false_or, or_false]

theorem CppStl.keepsApart (scope : Scope) : (spelling scope).KeepsApart true where
  truth := by
    change ∀ value, IsPlain ((spelling Grouping.emptyScope).truth value)
    decide
  name id named := by
    have isPlain := isPlain_of_isIdentifier named
    dsimp only [spelling]
    split
    · exact isPlain.append_right (by decide)
    · exact isPlain
  binary := by
    change ∀ op ∈ _, ¬ Doubled ((spelling Grouping.emptyScope).binaryOf op).toList
    decide
  minus := rfl
  unary := by
    change ∀ op ∈ _, op ≠ "-" →
      IsPlain ((spelling Grouping.emptyScope).unary (Operator.symbol op))
    decide
  hidden shown := absurd shown (by decide)
  shown _ type := by
    refine ⟨rfl, ?_, ?_⟩
    · have closing : IsPlain "*>(" := by decide
      rw [cast_chars]
      exact (closing.endsPlain.append_left _).append_left _
    · rw [cast_chars]
      exact (by decide : some 's' ≠ some '-')
  field id named := by
    have plain : IsPlain (id ++ "()") := (isPlain_of_isIdentifier named).append_right (by decide)
    have text : ((spelling scope).field id).2.toList = '-' :: '>' :: (id ++ "()").toList := by
      change ("->" ++ id ++ "()").toList = _
      simp
    refine ⟨rfl, ?_, ?_⟩
    · rw [text]
      exact plain.endsPlain.append_left ['-', '>']
    · rw [text, Doubled.minus_iff, Doubled.cons_iff (by decide)]
      exact not_or.mpr ⟨by simp, Doubled.not_of_not_mem plain.plain⟩

theorem Lua.keepsApart (scope : Scope) : (spelling scope).KeepsApart false where
  truth := by
    change ∀ value, IsPlain ((spelling Grouping.emptyScope).truth value)
    decide
  name id named := by
    have isPlain := isPlain_of_isIdentifier named
    change IsPlain (member scope id)
    rcases Grouping.lua_member_cases scope id with text | text | text
    · rw [text]
      exact (isPlain.append_left (by decide)).append_right (by decide)
    · rw [text]
      exact isPlain.append_left (by decide)
    · rwa [text]
  binary := by
    change ∀ op ∈ _, ¬ Doubled ((spelling Grouping.emptyScope).binaryOf op).toList
    decide
  minus := rfl
  unary := by
    change ∀ op ∈ _, op ≠ "-" →
      IsPlain ((spelling Grouping.emptyScope).unary (Operator.symbol op))
    decide
  hidden _ _ := rfl
  shown hidden := absurd hidden (by decide)
  field id named := by
    have isPlain : IsPlain ("." ++ id) := (isPlain_of_isIdentifier named).append_left (by decide)
    exact ⟨rfl, isPlain.endsPlain, Doubled.not_of_not_mem isPlain.plain⟩

end Target

theorem Spelling.KeepsApart.withItem {spelling : Spelling} {castsShown : Bool}
    (apart : spelling.KeepsApart castsShown) {item : String} (isPlain : IsPlain item) :
    (spelling.withItem item).KeepsApart castsShown where
  truth := apart.truth
  name id named := by
    dsimp only [Spelling.withItem]
    split
    · exact isPlain
    · exact apart.name id named
  binary := apart.binary
  minus := apart.minus
  unary := apart.unary
  hidden := apart.hidden
  shown := apart.shown
  field := apart.field

/-! ### The texts of the targets -/

/-- How a target spells expressions, and those among them that end a repetition. -/
def Spelling.versions (spelling : Spelling) : List Spelling :=
  [spelling, spelling.withItem "repeat_item"]

theorem Spelling.KeepsApart.versions {spelling version : Spelling} {castsShown : Bool}
    (apart : spelling.KeepsApart castsShown) (member : version ∈ spelling.versions) :
    version.KeepsApart castsShown ∧ version.cast = spelling.cast := by
  rcases List.mem_pair.mp member with rfl | rfl
  · exact ⟨apart, rfl⟩
  · exact ⟨apart.withItem (by decide), rfl⟩

theorem Expr.doubled_spell_iff {spelling : Spelling} {castsShown : Bool}
    (apart : spelling.KeepsApart castsShown) {known : List String} {expr : Expr}
    (accepted : Subset.rejectExpr known expr = none) (named : expr.isNamed) :
    Doubled (expr.spell spelling).toList ↔ expr.Doubles spelling castsShown := by
  have supported := (Subset.rejectExpr_eq_none_iff known expr).mp accepted
  rw [toList_spell]
  exact (minusLaws apart expr supported named).doubled _

namespace Target

/-- Where two minus signs stand in a row in an accepted expression of identifiers. In the `lua`
targets it is where a minus sign is put before a negative literal, or before a cast or a field of
one. In the `cpp_stl` target a cast keeps them apart, but the class it names may have two itself. If
no scope of the module has a minus sign in its name, then no class has one. -/
theorem doubled_minus_iff (scope : Scope) {known : List String} {expr : Expr}
    (accepted : Subset.rejectExpr known expr = none) (named : expr.isNamed) :
    (∀ spelling ∈ (Lua.spelling scope).versions,
      (Doubled (expr.spell spelling).toList ↔ expr.negatesMinus false = true)) ∧
    (∀ spelling ∈ (CppStl.spelling scope).versions,
      (Doubled (expr.spell spelling).toList ↔ expr.negatesMinus true = true ∨
        ∃ type ∈ expr.castTypes, Doubled (CppStl.castClass scope type).toList)) ∧
    ('-' ∉ scope.module.root.name.toList → (∀ path ∈ scope.module.paths, '-' ∉ path.toList) →
      ∀ type ∈ expr.castTypes, '-' ∉ (CppStl.castClass scope type).toList) := by
  refine ⟨fun spelling version => ?_, fun spelling version => ?_, fun root paths type cast => ?_⟩
  · have apart := ((Lua.keepsApart scope).versions version).1
    rw [Expr.doubled_spell_iff apart accepted named]
    simp [Expr.Doubles]
  · obtain ⟨apart, same⟩ := (CppStl.keepsApart scope).versions version
    rw [Expr.doubled_spell_iff apart accepted named, Expr.Doubles, same]
    simp only [true_and, CppStl.doubled_cast_iff]
  · exact CppStl.not_mem_castClass (expr.segments_of_isNamed named cast) root paths

/-- A minus sign between its operands is set apart from a negative literal. -/
theorem doubled_minus_iff_difference :
    let difference : Expr := .binary "-" (.unary (.cast "part") (.name "a")) (.int (-5))
    let root : Format :=
      { name := "top", order := .little, fields := [{ id := "a", type := .primitive .u1 }],
        instances := [⟨"v", .value difference⟩] }
    let module : Module := ⟨root, []⟩
    root.violation? = none ∧ Module.ofFormat root = .ok module ∧ module.unsupported? = none ∧
      ¬ Doubled (difference.spell (Lua.spelling module.rootScope)).toList ∧
      ¬ Doubled (difference.spell (CppStl.spelling module.rootScope)).toList := by
  intro difference root module
  have accepted : Subset.rejectExpr ["a"] difference = none := by decide
  have named : difference.isNamed = true := by decide
  obtain ⟨lua, cpp, names⟩ := doubled_minus_iff module.rootScope accepted named
  refine ⟨by decide, rfl, by decide +kernel, ?_, ?_⟩
  · rw [lua _ List.mem_cons_self]
    decide
  · rw [cpp _ List.mem_cons_self]
    refine not_or.mpr ⟨by decide, ?_⟩
    rintro ⟨type, cast, doubled⟩
    exact Doubled.not_of_not_mem (names (by decide) (by decide) type cast) doubled

/-- A minus sign before a negative literal makes two in a row, in `lua` as in `cpp_stl`. -/
theorem doubled_minus_literal :
    let negated : Expr := .unary (.sign "-") (.int (-5))
    let root : Format :=
      { name := "top", order := .little, instances := [⟨"v", .value negated⟩] }
    let module : Module := ⟨root, []⟩
    root.violation? = none ∧ Module.ofFormat root = .ok module ∧ module.unsupported? = none ∧
      negated.isNamed = true ∧
      negated.spell (Lua.spelling module.rootScope) = "(--5)" ∧
      negated.spell (CppStl.spelling module.rootScope) = "(--5)" ∧ Doubled "(--5)".toList := by
  intro negated root module
  exact ⟨by decide, rfl, by decide +kernel, by decide, by decide, by decide, by decide⟩

end Target

end FormatCompiler
