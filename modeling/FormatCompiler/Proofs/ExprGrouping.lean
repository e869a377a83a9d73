import FormatCompiler.Expr.Spelling
import FormatCompiler.Module.Subset
import FormatCompiler.Proofs.Grouping

/-!
What the pieces of an expression are grouped to by a reader of a language. The parentheses are put
by the strengths of the operators alone; an expression keeps its structure exactly if it has no
operand without parentheses that the language gives to another operator.
-/

namespace FormatCompiler

set_option autoImplicit false

open Grouping

/-! ### Expressions as trees, layouts and tokens -/

/-- The value of an integer literal, with the sign as an operator. -/
def literalTerm : Int → Term
  | .ofNat magnitude => .leaf (.number magnitude)
  | .negSucc magnitude => .unary "-" (.leaf (.number (magnitude + 1)))

def literalLayout : Int → Layout
  | .ofNat magnitude => .number magnitude
  | .negSucc magnitude => .unary "-" (.number (magnitude + 1))

/-- A sign without the space that may follow it. -/
def signWord (text : String) : String :=
  String.ofList (text.toList.takeWhile (· != ' '))

def Piece.tokens : Piece → List Token
  | .int value => (literalLayout value.toInt).tokens
  | .word text => [.word text]
  | .opening => [.opening]
  | .closing => [.closing]
  | .sign spelling => [.symbol (signWord spelling)]
  | .operator spelling => [.symbol spelling]
  | .wrapping text => [.word text]

namespace Expr

/-- Whether an expression has nothing but literals, names and the known operators. -/
def isSimple (isName : String → Bool) : Expr → Bool
  | .int _ | .bool _ => true
  | .name id => isName id
  | .unary (.sign op) operand => Subset.unaryOperators.contains op && operand.isSimple isName
  | .unary _ _ => false
  | .binary op lhs rhs =>
    Subset.binaryOperators.contains op && lhs.isSimple isName && rhs.isSimple isName

/-- An induction over the expressions with nothing but literals, names and the known operators. -/
@[elab_as_elim]
theorem isSimple_rec {isName : String → Bool}
    {motive : (expr : Expr) → expr.isSimple isName = true → Prop}
    (int : ∀ value, motive (.int value) rfl) (bool : ∀ value, motive (.bool value) rfl)
    (name : ∀ id, (named : isName id = true) → motive (.name id) named)
    (sign : ∀ op operand, op ∈ Subset.unaryOperators →
      (simple : operand.isSimple isName = true) → motive operand simple →
      ∀ whole, motive (.unary (.sign op) operand) whole)
    (binary : ∀ op lhs rhs, op ∈ Subset.binaryOperators →
      (lhsSimple : lhs.isSimple isName = true) → (rhsSimple : rhs.isSimple isName = true) →
      motive lhs lhsSimple → motive rhs rhsSimple → ∀ whole, motive (.binary op lhs rhs) whole)
    (expr : Expr) (simple : expr.isSimple isName = true) : motive expr simple := by
  induction expr with
  | int value => exact int value
  | bool value => exact bool value
  | name id => exact name id simple
  | unary op operand ih =>
    cases op with
    | sign op =>
      have parts := simple
      simp only [isSimple, Bool.and_eq_true, List.contains_iff_mem] at parts
      exact sign op operand parts.1 parts.2 (ih parts.2) simple
    | cast type => cases simple
    | field id => cases simple
  | binary op lhs rhs lhsIH rhsIH =>
    have parts := simple
    simp only [isSimple, Bool.and_eq_true, List.contains_iff_mem] at parts
    obtain ⟨⟨known, lhsSimple⟩, rhsSimple⟩ := parts
    exact binary op lhs rhs known lhsSimple rhsSimple (lhsIH lhsSimple) (rhsIH rhsSimple) simple

/-- An expression as a tree, its operators spelled in some way. -/
def term (sign binary : String → String) : Expr → Term
  | .int value => literalTerm value.toInt
  | .bool value => .leaf (.truth value)
  | .name id => .leaf (.name id)
  | .unary (.sign op) operand => .unary (sign op) (operand.term sign binary)
  | .unary _ operand => operand.term sign binary
  | .binary op lhs rhs => .binary (binary op) (lhs.term sign binary) (rhs.term sign binary)

end Expr

/-- How a sign is spelled, without the space that may follow it. -/
def Spelling.signOf (spelling : Spelling) (op : String) : String :=
  signWord (spelling.unary (Operator.symbol op))

def Spelling.binaryOf (spelling : Spelling) (op : String) : String :=
  spelling.binary (Operator.symbol op)

/-- The tree of an expression with the operators that a spelling gives it. -/
def Expr.termIn (spelling : Spelling) (expr : Expr) : Term :=
  expr.term spelling.signOf spelling.binaryOf

/-- Whether an operation stands without parentheses where operators of the strength `around` bind
it. -/
def Operator.isBare (around : Nat) (symbol : String) : Bool :=
  !isLogical symbol && decide (around < strength symbol)

namespace Expr

/-- An expression with its parentheses, where operators of the strength `around` bind it. -/
def grouping (spelling : Spelling) : Nat → Expr → Layout
  | _, .int value => literalLayout value.toInt
  | _, .bool value => .word (spelling.truth value)
  | _, .name id => .word (spelling.name id)
  | _, .unary (.sign op) operand =>
    .group (.unary (spelling.signOf op) (operand.grouping spelling Operator.unaryStrength))
  | _, .unary _ operand => operand.grouping spelling Operator.unaryStrength
  | around, .binary op lhs rhs =>
    let symbol := Operator.symbol op
    let left := lhs.grouping spelling (Operator.strength symbol)
    let right := rhs.grouping spelling (Operator.strength symbol + 1)
    if Operator.isLogical symbol then
      .group (.binary (spelling.binaryOf op) (.group left) (.group right))
    else if Operator.isBare around symbol then .binary (spelling.binaryOf op) left right
    else .group (.binary (spelling.binaryOf op) left right)

/-- The tokens of an expression, in the order in which its pieces are written. -/
def tokens (spelling : Spelling) (expr : Expr) : List Grouping.Token :=
  (expr.pieces spelling Operator.outermost).flatMap Piece.tokens

theorem tokens_pieces (spelling : Spelling) (isName : String → Bool) (around : Nat) (expr : Expr)
    (simple : expr.isSimple isName) :
    (expr.pieces spelling around).flatMap Piece.tokens =
      (expr.grouping spelling around).tokens := by
  induction expr, simple using isSimple_rec generalizing around with
  | int value => simp [pieces, grouping, Piece.tokens]
  | bool value => rfl
  | name id _ => rfl
  | sign op operand _ _ ih _ =>
    simp [pieces, grouping, Piece.tokens, Layout.tokens, Spelling.signOf, ih]
  | binary op lhs rhs _ _ _ lhsIH rhsIH _ =>
    have left := lhsIH (Operator.strength (Operator.symbol op))
    have right := rhsIH (Operator.strength (Operator.symbol op) + 1)
    rw [pieces, grouping]
    by_cases logical : Operator.isLogical (Operator.symbol op)
    · simp [logical, Piece.tokens, Layout.tokens, left, right, Spelling.binaryOf]
    · by_cases bound : Operator.strength (Operator.symbol op) ≤ around
      · simp [logical, bound, Operator.isBare, Nat.not_lt.mpr bound, Piece.tokens, Layout.tokens,
          left, right, Spelling.binaryOf]
      · simp [logical, bound, Operator.isBare, Nat.lt_of_not_le bound, Piece.tokens, Layout.tokens,
          left, right, Spelling.binaryOf]

end Expr

/-! ### The expressions that keep their structure -/

namespace Expr

/-- The symbol of the operator of a binary operation. -/
def operator? : Expr → Option String
  | .binary op _ _ => some (Operator.symbol op)
  | _ => none

/-- Whether no operator has a left or a right operand that some test forbids, given the symbols of
both operators. -/
def avoids (left right : String → String → Bool) : Expr → Bool
  | .int _ | .bool _ | .name _ => true
  | .unary _ operand => operand.avoids left right
  | .binary op lhs rhs =>
    !lhs.operator?.any (left (Operator.symbol op)) &&
      !rhs.operator?.any (right (Operator.symbol op)) &&
      lhs.avoids left right && rhs.avoids left right

end Expr

/-- A spelling without its names. -/
def Spelling.nameless (spelling : Spelling) : Spelling where
  truth := spelling.truth
  name := id
  binary := spelling.binary
  unary := spelling.unary

/-- Whether a language has the truth values and operators of a spelling, with a minus sign that
binds tighter than any of the operators it may stand behind. -/
def Grouping.Language.covers (language : Language) (spelling : Spelling) : Bool :=
  language.isSign "-" &&
  [true, false].all (fun value => language.operand (spelling.truth value) == .truth value) &&
  Subset.binaryOperators.all (fun op => language.isBinary (spelling.binaryOf op) &&
    decide (language.level (spelling.binaryOf op) < language.signLevel "-")) &&
  Subset.unaryOperators.all (fun op => language.isSign (spelling.signOf op) &&
    decide (language.signLevel (spelling.signOf op) ≤ language.signLevel "-"))

/-- A language with the operands and operators of a spelling. -/
structure Speaks (language : Language) (spelling : Spelling) : Prop where
  covers : language.covers spelling.nameless = true
  name : ∀ id, language.isName id → language.operand (spelling.name id) = .name id

namespace Speaks

variable {language : Language} {spelling : Spelling} (speaks : Speaks language spelling)

include speaks

theorem covers_parts :
    language.isSign "-" ∧
      (∀ value, language.operand (spelling.truth value) = .truth value) ∧
      (∀ op ∈ Subset.binaryOperators, language.isBinary (spelling.binaryOf op) ∧
        language.level (spelling.binaryOf op) < language.signLevel "-") ∧
      ∀ op ∈ Subset.unaryOperators, language.isSign (spelling.signOf op) ∧
        language.signLevel (spelling.signOf op) ≤ language.signLevel "-" := by
  have covers := speaks.covers
  simp only [Language.covers, Bool.and_eq_true, List.all_eq_true, beq_iff_eq,
    decide_eq_true_eq] at covers
  obtain ⟨⟨⟨minus, truths⟩, binaries⟩, signs⟩ := covers
  refine ⟨minus, ?_, binaries, signs⟩
  intro value
  exact truths value (by cases value <;> decide)

theorem minus : language.isSign "-" := speaks.covers_parts.1

theorem truth (value : Bool) : language.operand (spelling.truth value) = .truth value :=
  speaks.covers_parts.2.1 value

theorem binary {op : String} (known : op ∈ Subset.binaryOperators) :
    language.isBinary (spelling.binaryOf op) ∧
      language.level (spelling.binaryOf op) < language.signLevel "-" :=
  speaks.covers_parts.2.2.1 op known

theorem sign {op : String} (known : op ∈ Subset.unaryOperators) :
    language.isSign (spelling.signOf op) ∧
      language.signLevel (spelling.signOf op) ≤ language.signLevel "-" :=
  speaks.covers_parts.2.2.2 op known

end Speaks

namespace Grouping.Language

variable (language : Language) (spelling : Spelling)

/-- Whether an operator takes the end of its left operand instead of the whole of it. -/
def splitsLeft (op operand : String) : Bool :=
  !Operator.isLogical op && Operator.isBare (Operator.strength op) operand &&
    decide (language.level (spelling.binary operand) < language.leftLevel (spelling.binary op))

/-- Whether an operator takes the start of its right operand instead of the whole of it. -/
def splitsRight (op operand : String) : Bool :=
  !Operator.isLogical op && Operator.isBare (Operator.strength op + 1) operand &&
    decide (language.level (spelling.binary operand) < language.level (spelling.binary op) + 1)

theorem leftLevel_le (op : String) : language.leftLevel op ≤ language.level op + 1 := by
  unfold leftLevel
  split <;> omega

end Grouping.Language

section

variable {language : Language} {spelling : Spelling}

theorem flat_literalLayout (value : Int) :
    ((literalLayout value).term language).flat = literalTerm value := by
  cases value <;> rfl

theorem Expr.flat_term_grouping (speaks : Speaks language spelling) (around : Nat) (expr : Expr)
    (simple : expr.isSimple language.isName) :
    ((expr.grouping spelling around).term language).flat = expr.termIn spelling := by
  induction expr, simple using isSimple_rec generalizing around with
  | int value => exact flat_literalLayout value.toInt
  | bool value => simp [grouping, Layout.term, Term.flat, speaks.truth, termIn, term]
  | name id isName =>
    simp [grouping, Layout.term, Term.flat, speaks.name id isName, termIn, term]
  | sign op operand _ _ ih _ =>
    have operandTerm := ih Operator.unaryStrength
    simp only [grouping, Layout.term, Term.flat, operandTerm, termIn, term]
  | binary op lhs rhs _ _ _ lhsIH rhsIH _ =>
    have left := lhsIH (Operator.strength (Operator.symbol op))
    have right := rhsIH (Operator.strength (Operator.symbol op) + 1)
    rw [grouping]
    split
    · rw [Layout.term, Layout.flat_term_binary, Layout.term, Layout.term, left, right]
      rfl
    · split
      · rw [Layout.flat_term_binary, left, right]
        rfl
      · rw [Layout.term, Layout.flat_term_binary, left, right]
        rfl

/-- Where operators take in all from some level on, only an operation without parentheses may be
left out. -/
theorem Expr.atLeast_grouping_iff (spelling : Spelling) {expr : Expr} (around least : Nat)
    (below : least ≤ language.signLevel "-") (simple : expr.isSimple language.isName) :
    (expr.grouping spelling around).AtLeast language least ↔
      expr.operator?.any (fun symbol => Operator.isBare around symbol &&
        decide (language.level (spelling.binary symbol) < least)) = false := by
  induction expr, simple using isSimple_rec with
  | int value =>
    have above : (literalLayout value.toInt).AtLeast language least := by
      cases value.toInt with
      | ofNat _ => trivial
      | negSucc _ => exact below
    simpa [grouping, operator?] using above
  | bool value => simp [grouping, Layout.AtLeast, operator?]
  | name id _ => simp [grouping, Layout.AtLeast, operator?]
  | sign op operand _ _ _ _ => simp [grouping, Layout.AtLeast, operator?]
  | binary op lhs rhs _ _ _ _ _ _ =>
    rw [grouping, operator?, Option.any_some]
    by_cases logical : Operator.isLogical (Operator.symbol op)
    · simp [logical, Layout.AtLeast, Operator.isBare]
    · by_cases bare : Operator.isBare around (Operator.symbol op)
      · simp [logical, bare, Layout.AtLeast, Spelling.binaryOf]
      · simp [logical, bare, Layout.AtLeast]

/-- No binary operation is an operand of a unary operator without parentheses. -/
theorem Operator.isBare_unaryStrength (symbol : String) :
    isBare unaryStrength symbol = false := by
  have bounded : strength symbol ≤ unaryStrength := by
    unfold strength
    split <;> decide
  simp [isBare, Nat.not_lt.mpr bounded]

theorem Expr.stable_grouping_iff (speaks : Speaks language spelling) (around : Nat) (expr : Expr)
    (simple : expr.isSimple language.isName) :
    (expr.grouping spelling around).Stable language ↔
      expr.avoids (language.splitsLeft spelling) (language.splitsRight spelling) := by
  induction expr, simple using isSimple_rec generalizing around with
  | int value =>
    have stable : (literalLayout value.toInt).Stable language := by
      cases value.toInt with
      | ofNat _ => trivial
      | negSucc _ => exact ⟨speaks.minus, trivial, trivial⟩
    simpa [grouping, avoids] using stable
  | bool value => simp [grouping, avoids, Layout.Stable]
  | name id _ => simp [grouping, avoids, Layout.Stable]
  | sign op operand known simple ih _ =>
    obtain ⟨isSign, belowMinus⟩ := speaks.sign known
    have above : (operand.grouping spelling Operator.unaryStrength).AtLeast language
        (language.signLevel (spelling.signOf op)) := by
      rw [atLeast_grouping_iff spelling _ _ belowMinus simple]
      simp [Operator.isBare_unaryStrength]
    simp only [grouping, Layout.Stable, isSign, above, true_and, avoids, ih]
  | binary op lhs rhs known lhsSimple rhsSimple lhsIH rhsIH _ =>
    obtain ⟨isBinary, belowMinus⟩ := speaks.binary known
    have left := lhsIH (Operator.strength (Operator.symbol op))
    have right := rhsIH (Operator.strength (Operator.symbol op) + 1)
    by_cases logical : Operator.isLogical (Operator.symbol op)
    · have noLeft : language.splitsLeft spelling (Operator.symbol op) = fun _ => false := by
        funext operand
        simp [Language.splitsLeft, logical]
      have noRight : language.splitsRight spelling (Operator.symbol op) = fun _ => false := by
        funext operand
        simp [Language.splitsRight, logical]
      simp [grouping, logical, Layout.Stable, Layout.AtLeast, isBinary, left, right, avoids, noLeft,
        noRight]
    · have lhsAbove := atLeast_grouping_iff spelling (Operator.strength (Operator.symbol op)) _
        (Nat.le_trans (language.leftLevel_le (spelling.binaryOf op)) belowMinus) lhsSimple
      have rhsAbove := atLeast_grouping_iff spelling (Operator.strength (Operator.symbol op) + 1)
        (language.level (spelling.binaryOf op) + 1) belowMinus rhsSimple
      -- Parentheses around the whole operation change nothing.
      have operation : ((Expr.binary op lhs rhs).grouping spelling around).Stable language ↔
          (Layout.binary (spelling.binaryOf op)
            (lhs.grouping spelling (Operator.strength (Operator.symbol op)))
            (rhs.grouping spelling (Operator.strength (Operator.symbol op) + 1))).Stable
            language := by
        rw [grouping, if_neg logical]
        split
        · exact Iff.rfl
        · exact Iff.rfl
      have unlogical := Bool.eq_false_iff.mpr logical
      have leftTest : language.splitsLeft spelling (Operator.symbol op) = fun operand =>
          Operator.isBare (Operator.strength (Operator.symbol op)) operand &&
            decide (language.level (spelling.binary operand) <
              language.leftLevel (spelling.binaryOf op)) := by
        funext operand
        rw [Language.splitsLeft, unlogical]
        rfl
      have rightTest : language.splitsRight spelling (Operator.symbol op) = fun operand =>
          Operator.isBare (Operator.strength (Operator.symbol op) + 1) operand &&
            decide (language.level (spelling.binary operand) <
              language.level (spelling.binaryOf op) + 1) := by
        funext operand
        rw [Language.splitsRight, unlogical]
        rfl
      rw [operation, Layout.Stable, lhsAbove, rhsAbove, left, right, avoids, leftTest, rightTest]
      simp only [isBinary, true_and, Bool.and_eq_true, Bool.not_eq_true', and_assoc]

/-- The tokens of an expression are read as its tree exactly if no operator splits an operand. -/
theorem Expr.parse_tokens_iff_avoids (speaks : Speaks language spelling) {expr : Expr}
    (simple : expr.isSimple language.isName) :
    parse language (expr.tokens spelling) = some (expr.termIn spelling) ↔
      expr.avoids (language.splitsLeft spelling) (language.splitsRight spelling) := by
  rw [tokens, tokens_pieces spelling language.isName _ expr simple,
    ← flat_term_grouping speaks Operator.outermost expr simple, parse_tokens_iff,
    stable_grouping_iff speaks _ expr simple]

/-- Tests that agree on the known operators forbid the same expressions. -/
theorem Expr.avoids_congr {isName : String → Bool}
    {left right left' right' : String → String → Bool}
    (lefts : ∀ op ∈ Subset.binaryOperators, ∀ operand ∈ Subset.binaryOperators,
      left (Operator.symbol op) (Operator.symbol operand) =
        left' (Operator.symbol op) (Operator.symbol operand))
    (rights : ∀ op ∈ Subset.binaryOperators, ∀ operand ∈ Subset.binaryOperators,
      right (Operator.symbol op) (Operator.symbol operand) =
        right' (Operator.symbol op) (Operator.symbol operand))
    {expr : Expr} (simple : expr.isSimple isName) :
    expr.avoids left right = expr.avoids left' right' := by
  have operandSame : ∀ {op : String} {operand : Expr} {test test' : String → String → Bool},
      (∀ other ∈ Subset.binaryOperators, test op (Operator.symbol other) =
        test' op (Operator.symbol other)) → operand.isSimple isName →
      operand.operator?.any (test op) = operand.operator?.any (test' op) := by
    intro op operand test test' same operandSimple
    cases operand with
    | binary other _ _ =>
      simp only [isSimple, Bool.and_eq_true, List.contains_iff_mem] at operandSimple
      exact same other operandSimple.1.1
    | _ => rfl
  induction expr, simple using isSimple_rec with
  | int _ => rfl
  | bool _ => rfl
  | name _ _ => rfl
  | sign op operand _ _ ih _ => exact ih
  | binary op lhs rhs known lhsSimple rhsSimple lhsIH rhsIH _ =>
    rw [avoids, avoids, operandSame (lefts op known) lhsSimple,
      operandSame (rights op known) rhsSimple, lhsIH, rhsIH]

theorem Expr.avoids_never (expr : Expr) :
    expr.avoids (fun _ _ => false) (fun _ _ => false) = true := by
  induction expr with
  | int _ => rfl
  | bool _ => rfl
  | name _ => rfl
  | unary op operand ih => exact ih
  | binary op lhs rhs lhsIH rhsIH => simp [avoids, lhsIH, rhsIH]

end

end FormatCompiler
