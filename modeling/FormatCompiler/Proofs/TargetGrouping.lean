import FormatCompiler.Proofs.ExprLexing
import FormatCompiler.Target.CppStl
import FormatCompiler.Target.Lua
import FormatCompiler.Target.Python
import FormatCompiler.Target.Ruby

/-!
How the targets read the expressions that are generated for them. The strengths that the
parentheses are put by are those of the `cpp_stl` target, where every expression keeps its
structure. The other targets order bitwise operators and comparisons in their own ways.
-/

namespace FormatCompiler.Grouping

set_option autoImplicit false

/-- The name at the end of a path, without the parentheses of a call. -/
def pathEnd (text : List Char) : List Char :=
  ((text.takeWhile (· != '(')).reverse.takeWhile isNameChar).reverse

/-- What a word stands for, given the two truth values. -/
def wordOperand (yes no text : String) : Operand :=
  if text = yes then .truth true
  else if text = no then .truth false
  else .name (String.ofList (pathEnd text.toList))

theorem pathEnd_append {path id call : List Char} (nameChars : id.all isNameChar)
    (noCall : path.all (· != '(')) (apart : path.getLast?.any isNameChar = false)
    (isCall : call = [] ∨ call = ['(', ')']) : pathEnd (path ++ id ++ call) = id := by
  have idNoCall : id.all (· != '(') := by
    rw [List.all_eq_true] at nameChars ⊢
    intro c member
    have isNamed := nameChars c member
    rw [bne_iff_ne]
    rintro rfl
    cases isNamed
  have cut : (path ++ id ++ call).takeWhile (· != '(') = path ++ id := by
    have whole : ∀ c ∈ path ++ id, (c != '(') = true := by
      rw [← List.all_eq_true, List.all_append, noCall, idNoCall]
      rfl
    rw [List.takeWhile_append_of_pos whole]
    rcases isCall with rfl | rfl <;> simp
  have named : ∀ c ∈ id.reverse, isNameChar c = true := by
    intro c member
    exact List.all_eq_true.mp nameChars c (List.mem_reverse.mp member)
  have stopped : path.reverse.takeWhile isNameChar = [] := by
    rw [← List.head?_reverse] at apart
    cases shape : path.reverse with
    | nil => rfl
    | cons c front =>
      rw [shape] at apart
      exact List.takeWhile_cons_of_neg (by simpa using apart)
  rw [pathEnd, cut, List.reverse_append, List.takeWhile_append_of_pos named, stopped]
  simp

/-! ### Words -/

/-- The parts of a name. -/
theorem Language.isName_parts {language : Language} {id : String} (isName : language.isName id) :
    (∃ c rest, id.toList = c :: rest ∧ isNameChar c ∧ c.isDigit = false) ∧
      id.toList.all isNameChar ∧ id ∉ language.reserved := by
  simp only [Language.isName, Bool.and_eq_true, Bool.not_eq_true'] at isName
  obtain ⟨⟨⟨nonempty, noDigit⟩, named⟩, free⟩ := isName
  refine ⟨?_, named, by simpa using free⟩
  cases shape : id.toList with
  | nil =>
    rw [String.toList_eq_nil_iff.mp shape] at nonempty
    cases nonempty
  | cons c rest =>
    rw [shape] at noDigit named
    simp only [List.all_cons, Bool.and_eq_true] at named
    exact ⟨c, rest, rfl, named.1, by simpa using noDigit⟩

theorem readMagnitude_eq_none {c : Char} (noDigit : c.isDigit = false) (rest : List Char) :
    Text.readMagnitude 10 (c :: rest) = none := by
  have outside : ¬ ('0' ≤ c ∧ c ≤ '9') := by
    intro inside
    have digit : c.isDigit := by
      simpa only [Char.isDigit, Bool.and_eq_true, decide_eq_true_eq, ge_iff_le, Char.le_def]
        using inside
    rw [digit] at noDigit
    cases noDigit
  have noValue : Text.digitValue 10 c = none := by
    simp only [Text.digitValue, if_neg outside]
    split
    · simp
    · split
      · simp
      · rfl
  rw [Text.readMagnitude, Text.readDigits, noValue]
  · rfl
  · simp

/-- The texts of the operators of a language. -/
def Language.operators (language : Language) : List String :=
  language.binary.map Prod.fst ++ language.sign.map Prod.fst

theorem mem_operators {language : Language} {text : String}
    (isOperator : language.isBinary text || language.isSign text) : text ∈ language.operators := by
  rw [Language.operators, List.mem_append, List.mem_map, List.mem_map]
  rw [Bool.or_eq_true] at isOperator
  rcases isOperator with isBinary | isSign
  · exact Or.inl ⟨_, mem_of_lookup_isSome isBinary, rfl⟩
  · exact Or.inr ⟨_, mem_of_lookup_isSome isSign, rfl⟩

theorem wordToken_eq_word {language : Language} {text : String} {c : Char} {rest : List Char}
    (shape : text.toList = c :: rest) (noDigit : c.isDigit = false)
    (free : text ∉ language.operators) : language.wordToken text.toList = .word text := by
  have noOperator : (language.isBinary text || language.isSign text) = false := by
    rw [Bool.eq_false_iff]
    exact fun isOperator => free (mem_operators isOperator)
  rw [Language.wordToken, shape, readMagnitude_eq_none noDigit, ← shape]
  simp only [String.ofList_toList, noOperator]
  rfl

theorem all_isWordChar {text : List Char} (nameChars : text.all isNameChar) :
    text.all isWordChar := by
  rw [List.all_eq_true] at nameChars ⊢
  intro c member
  simp [isWordChar, nameChars c member]

theorem isWord_call {language : Language} {text : String} {c : Char} {rest : List Char}
    (shape : text.toList = c :: rest) (named : isNameChar c)
    (wordChars : text.toList.all isWordChar) : IsWord language (text ++ "()") where
  spells := by
    have whole := language.scan_nothing_word (by rw [shape]; simp) (List.all_eq_true.mp wordChars)
    refine ⟨[.word (text ++ "()")], .nothing, ?_, rfl, by simp [Language.release]⟩
    rw [String.toList_append, Language.scan_append, whole]
    change ([Token.word (String.ofList (text.toList ++ ['(', ')']))], Held.nothing) = _
    rw [← String.ofList_toList (s := text ++ "()"), String.toList_append]
    rfl
  starts := ⟨c, rest ++ ['(', ')'], by simp [shape], named⟩

/-- The last name of a path stands for itself, if the path is none of the truth values. -/
theorem wordOperand_path {language : Language} {yes no id : String} (isName : language.isName id)
    (path call : String) (noCall : path.toList.all (· != '('))
    (apart : path.toList.getLast?.any isNameChar = false) (isCall : call = "" ∨ call = "()")
    (notTruth : path ++ id ++ call ≠ yes ∧ path ++ id ++ call ≠ no) :
    wordOperand yes no (path ++ id ++ call) = .name id := by
  have named := (Language.isName_parts isName).2.1
  have callShape : call.toList = [] ∨ call.toList = ['(', ')'] := by
    rcases isCall with rfl | rfl
    · exact Or.inl rfl
    · exact Or.inr rfl
  rw [wordOperand, if_neg notTruth.1, if_neg notTruth.2, String.toList_append, String.toList_append,
    pathEnd_append named noCall apart callShape, String.ofList_toList]

theorem wordOperand_name {language : Language} {yes no id : String} (isName : language.isName id)
    (reserved : language.reserved.contains yes && language.reserved.contains no) :
    wordOperand yes no id = .name id := by
  have unreserved := (Language.isName_parts isName).2.2
  simp only [Bool.and_eq_true, List.contains_iff_mem] at reserved
  have notTruth : id ≠ yes ∧ id ≠ no :=
    ⟨fun same => unreserved (same ▸ reserved.1), fun same => unreserved (same ▸ reserved.2)⟩
  simpa using wordOperand_path isName "" "" rfl rfl (Or.inl rfl) (by simpa using notTruth)

/-- A text is no truth value if it has a character that they lack. -/
theorem not_truth_of_mem {text yes no : String} {c : Char} (member : c ∈ text.toList)
    (lack : !yes.toList.contains c && !no.toList.contains c) : text ≠ yes ∧ text ≠ no := by
  constructor
  · rintro rfl
    simp [member] at lack
  · rintro rfl
    simp [member] at lack

/-- A name is a word of its own if all operators that look like names are reserved. -/
theorem isWord_name {language : Language} {id : String} (isName : language.isName id)
    (reserves : language.operators.all fun op =>
      language.reserved.contains op || !op.toList.all isNameChar) : IsWord language id := by
  obtain ⟨⟨c, rest, shape, named, noDigit⟩, nameChars, unreserved⟩ := Language.isName_parts isName
  have wordChars : id.toList.all isWordChar := all_isWordChar nameChars
  have free : id ∉ language.operators := by
    intro member
    have tested := List.all_eq_true.mp reserves id member
    simp [nameChars, unreserved] at tested
  exact isWord_of_wordToken shape named wordChars (wordToken_eq_word shape noDigit free)

/-- The path to a member is a word if no operator has the character that divides it. -/
theorem isWord_path {language : Language} {id : String} (isName : language.isName id)
    (path : String) (divider : Char) {c : Char} {rest : List Char}
    (shape : path.toList = c :: rest) (named : isNameChar c) (noDigit : c.isDigit = false)
    (wordChars : path.toList.all isWordChar) (divides : divider ∈ path.toList)
    (free : language.operators.all fun op => !op.toList.contains divider) :
    IsWord language (path ++ id) ∧ IsWord language (path ++ id ++ "()") := by
  have nameChars := (Language.isName_parts isName).2.1
  have whole : (path ++ id).toList = c :: (rest ++ id.toList) := by
    rw [String.toList_append, shape]
    rfl
  have allWord : (path ++ id).toList.all isWordChar := by
    rw [String.toList_append, List.all_append, wordChars, all_isWordChar nameChars]
    rfl
  have notOperator : path ++ id ∉ language.operators := by
    intro member
    have tested := List.all_eq_true.mp free _ member
    simp [divides] at tested
  exact ⟨isWord_of_wordToken whole named allWord (wordToken_eq_word whole noDigit notOperator),
    isWord_call whole named allWord⟩

/-! ### The languages of the targets -/

/-- The operators of expressions, by their symbols. -/
def symbols : List String :=
  ["||", "&&", "|", "^", "&", "==", "!=", "<", "<=", ">", ">=", "<<", ">>", "+", "-", "*", "/", "%"]

/-- The levels are the strengths that the parentheses are put by. -/
def cpp : Language where
  binary := symbols.map fun op => (op, Operator.strength op)
  sign := ["-", "!", "~"].map fun op => (op, Operator.unaryStrength)
  operand := wordOperand "true" "false"
  reserved := ["true", "false"]

def python : Language where
  binary := [("or", 1), ("and", 2), ("==", 4), ("!=", 4), ("<", 4), ("<=", 4), (">", 4), (">=", 4),
    ("|", 5), ("^", 6), ("&", 7), ("<<", 8), (">>", 8), ("+", 9), ("-", 9), ("*", 10), ("/", 10),
    ("//", 10), ("%", 10)]
  sign := [("not", 3), ("-", 11), ("~", 11)]
  chain := some 4
  operand := wordOperand "True" "False"
  reserved := ["False", "None", "True", "and", "as", "assert", "async", "await", "break", "class",
    "continue", "def", "del", "elif", "else", "except", "finally", "for", "from", "global", "if",
    "import", "in", "is", "lambda", "nonlocal", "not", "or", "pass", "raise", "return", "try",
    "while", "with", "yield"]
  pairs := ["**", "->", "+=", "-=", "*=", "/=", "%=", "&=", "|=", "^="]

/-- Neither of the two equalities groups with the other or with itself. -/
def ruby : Language where
  binary := [("||", 1), ("&&", 2), ("==", 3), ("!=", 3), ("<", 4), ("<=", 4), (">", 4), (">=", 4),
    ("|", 5), ("^", 5), ("&", 6), ("<<", 7), (">>", 7), ("+", 8), ("-", 8), ("*", 9), ("/", 9),
    ("%", 9)]
  sign := [("!", 10), ("-", 10), ("~", 10)]
  single := some 3
  operand := wordOperand "true" "false"
  reserved := ["BEGIN", "END", "__ENCODING__", "__FILE__", "__LINE__", "alias", "and", "begin",
    "break", "case", "class", "def", "defined?", "do", "else", "elsif", "end", "ensure", "false",
    "for", "if", "in", "module", "next", "nil", "not", "or", "redo", "rescue", "retry", "return",
    "self", "super", "then", "true", "undef", "unless", "until", "when", "while", "yield"]
  pairs := ["**", "->", "=~", "!~", "=>", "+=", "-=", "*=", "/=", "%=", "&=", "|=", "^="]

/-- Two minus signs start a comment, so no expression has them as a token. -/
def lua : Language where
  binary := [("or", 1), ("and", 2), ("==", 3), ("~=", 3), ("<", 3), ("<=", 3), (">", 3), (">=", 3),
    ("|", 4), ("~", 5), ("&", 6), ("<<", 7), (">>", 7), ("+", 8), ("-", 8), ("*", 9), ("/", 9),
    ("//", 9), ("%", 9)]
  sign := [("not", 10), ("-", 10), ("~", 10)]
  operand := wordOperand "true" "false"
  reserved := ["and", "break", "do", "else", "elseif", "end", "false", "for", "function", "goto",
    "if", "in", "local", "nil", "not", "or", "repeat", "return", "then", "true", "until", "while"]
  pairs := ["--"]

/-- A scope with nothing in it. The operators of a target are the same in every scope. -/
def emptyScope : Scope where
  module := ⟨{ name := "", order := .little }, []⟩
  path := ""
  format := { name := "", order := .little }
  aliases := ⟨[]⟩

section

variable (scope : Scope)

theorem cpp_speaks : Speaks cpp (Target.CppStl.spelling scope) where
  covers := by
    change cpp.covers (Target.CppStl.spelling emptyScope).nameless = true
    decide
  name id isName := by
    change wordOperand "true" "false" (if _ then id ++ "()" else id) = .name id
    split
    · have called : '(' ∈ ("" ++ id ++ "()").toList := by simp
      simpa using wordOperand_path isName "" "()" rfl rfl (Or.inr rfl)
        (not_truth_of_mem called (by decide) : _ ≠ "true" ∧ _ ≠ "false")
    · exact wordOperand_name isName (by decide)

theorem python_speaks : Speaks python (Target.Python.spelling scope) where
  covers := by
    change python.covers (Target.Python.spelling emptyScope).nameless = true
    decide
  name id isName := by
    change wordOperand "True" "False" (if _ then "self." ++ id else id) = .name id
    split
    · have pointed : '.' ∈ ("self." ++ id ++ "").toList := by simp
      simpa using wordOperand_path isName "self." "" rfl rfl (Or.inl rfl)
        (not_truth_of_mem pointed (by decide) : _ ≠ "True" ∧ _ ≠ "False")
    · exact wordOperand_name isName (by decide)

theorem python_writes : Writes python (Target.Python.spelling scope) where
  cuts := by
    change python.cuts (Target.Python.spelling emptyScope).nameless = true
    decide +kernel
  name id isName := by
    change IsWord python (if _ then "self." ++ id else id)
    split
    · exact (isWord_path isName "self." '.' rfl rfl rfl rfl (by decide) (by decide)).1
    · exact isWord_name isName (by decide)

end

theorem ruby_speaks : Speaks ruby Target.Ruby.spelling where
  covers := by decide
  name id isName := wordOperand_name isName (by decide)

theorem ruby_writes : Writes ruby Target.Ruby.spelling where
  cuts := by decide +kernel
  name id isName := isWord_name isName (by decide)

section

variable (scope : Scope)

/-- The texts of a name: a method, a field or the name alone. -/
theorem lua_member_cases (id : String) :
    Target.Lua.member scope id = "self:" ++ id ++ "()" ∨
      Target.Lua.member scope id = "self." ++ id ∨ Target.Lua.member scope id = id := by
  unfold Target.Lua.member
  split
  · exact Or.inl rfl
  · exact Or.inr (Or.inl rfl)
  · split
    · exact Or.inr (Or.inl rfl)
    · exact Or.inr (Or.inr rfl)

theorem lua_speaks : Speaks lua (Target.Lua.spelling scope) where
  covers := by
    change lua.covers (Target.Lua.spelling emptyScope).nameless = true
    decide
  name id isName := by
    change wordOperand "true" "false" (Target.Lua.member scope id) = .name id
    rcases lua_member_cases scope id with text | text | text
    · have called : '(' ∈ ("self:" ++ id ++ "()").toList := by simp
      rw [text]
      exact wordOperand_path isName "self:" "()" rfl rfl (Or.inr rfl)
        (not_truth_of_mem called (by decide))
    · have pointed : '.' ∈ ("self." ++ id ++ "").toList := by simp
      rw [text]
      simpa using wordOperand_path isName "self." "" rfl rfl (Or.inl rfl)
        (not_truth_of_mem pointed (by decide) : _ ≠ "true" ∧ _ ≠ "false")
    · rw [text]
      exact wordOperand_name isName (by decide)

theorem lua_writes : Writes lua (Target.Lua.spelling scope) where
  cuts := by
    change lua.cuts (Target.Lua.spelling emptyScope).nameless = true
    decide +kernel
  name id isName := by
    change IsWord lua (Target.Lua.member scope id)
    rcases lua_member_cases scope id with text | text | text
    · rw [text]
      exact (isWord_path isName "self:" ':' rfl rfl rfl rfl (by decide) (by decide)).2
    · rw [text]
      exact (isWord_path isName "self." '.' rfl rfl rfl rfl (by decide) (by decide)).1
    · rw [text]
      exact isWord_name isName (by decide)

end

/-! ### Expressions read back -/

theorem term_congr {isName : String → Bool} {sign sign' binary binary' : String → String}
    (signs : ∀ op ∈ Subset.unaryOperators, sign op = sign' op)
    (binaries : ∀ op ∈ Subset.binaryOperators, binary op = binary' op) {expr : Expr}
    (simple : expr.isSimple isName) : expr.term sign binary = expr.term sign' binary' := by
  induction expr, simple using Expr.isSimple_rec with
  | int _ => rfl
  | bool _ => rfl
  | name _ _ => rfl
  | sign op operand known _ ih _ => rw [Expr.term, Expr.term, signs op known, ih]
  | binary op lhs rhs known _ _ lhsIH rhsIH _ =>
    rw [Expr.term, Expr.term, binaries op known, lhsIH, rhsIH]

/-- Read by the strengths that the parentheses are put by, the tokens of an expression are the
expression itself, its operators given by their symbols. -/
theorem cpp_tokens_read_back (scope : Scope) (expr : Expr) (simple : expr.isSimple cpp.isName) :
    parse cpp (expr.tokens (Target.CppStl.spelling scope)) =
      some (expr.term Operator.symbol Operator.symbol) := by
  have lefts : ∀ op ∈ Subset.binaryOperators, ∀ operand ∈ Subset.binaryOperators,
      cpp.splitsLeft (Target.CppStl.spelling emptyScope) (Operator.symbol op)
        (Operator.symbol operand) = false := by decide +kernel
  have rights : ∀ op ∈ Subset.binaryOperators, ∀ operand ∈ Subset.binaryOperators,
      cpp.splitsRight (Target.CppStl.spelling emptyScope) (Operator.symbol op)
        (Operator.symbol operand) = false := by decide +kernel
  have signs : ∀ op ∈ Subset.unaryOperators,
      Operator.symbol op = (Target.CppStl.spelling emptyScope).signOf op := by decide
  have kept := (Expr.avoids_congr lefts rights simple).trans expr.avoids_never
  rw [term_congr signs (fun _ _ => rfl) simple]
  exact (Expr.parse_tokens_iff_avoids (cpp_speaks scope) simple).mpr kept

/-- Names of members are called; a negative literal is a minus sign before its magnitude. -/
theorem cpp_tokens_read_back_negative :
    parse cpp (Expr.tokens (Target.CppStl.spelling emptyScope)
        (.binary "xor" (.unary (.sign "not") (.name "_root"))
          (.binary "and" (.binary "-" (.name "a") (.binary "-" (.name "b") (.int (-3))))
            (.bool true)))) =
      some (.binary "^" (.unary "!" (.leaf (.name "_root")))
        (.binary "&&" (.binary "-" (.leaf (.name "a"))
            (.binary "-" (.leaf (.name "b")) (.unary "-" (.leaf (.number 3)))))
          (.leaf (.truth true)))) :=
  cpp_tokens_read_back emptyScope _ (by decide)

/-! ### What the other targets read otherwise -/

def isBitwise (symbol : String) : Bool := ["|", "^", "&"].contains symbol

def isEquality (symbol : String) : Bool := ["==", "!="].contains symbol

def isOrdering (symbol : String) : Bool := ["<", "<=", ">", ">="].contains symbol

/-- A bitwise operator has a comparison for an operand. -/
def isBitwiseOverComparison (op operand : String) : Bool :=
  isBitwise op && (isEquality operand || isOrdering operand)

/-- Besides, an equality has an ordering for an operand. -/
def isOverComparison (op operand : String) : Bool :=
  isBitwiseOverComparison op operand || isEquality op && isOrdering operand

/-- Besides, one of the two weakest bitwise operators has the other for an operand. -/
def isOverBitwise (op operand : String) : Bool :=
  isBitwiseOverComparison op operand || op == "|" && operand == "^"

/-- What a reader of a language gets from the text of an expression. -/
def readText (language : Language) (spelling : Spelling) (expr : Expr) : Option Term :=
  parse language (language.lex (expr.spell spelling).toList)

theorem readText_iff {language : Language} {spelling : Spelling}
    (speaks : Speaks language spelling) (writes : Writes language spelling)
    {left right : String → String → Bool}
    (lefts : ∀ op ∈ Subset.binaryOperators, ∀ operand ∈ Subset.binaryOperators,
      language.splitsLeft spelling (Operator.symbol op) (Operator.symbol operand) =
        left (Operator.symbol op) (Operator.symbol operand))
    (rights : ∀ op ∈ Subset.binaryOperators, ∀ operand ∈ Subset.binaryOperators,
      language.splitsRight spelling (Operator.symbol op) (Operator.symbol operand) =
        right (Operator.symbol op) (Operator.symbol operand))
    {expr : Expr} (simple : expr.isSimple language.isName) :
    readText language spelling expr = some (expr.termIn spelling) ↔
      expr.avoids left right ∧ expr.joinsMinus language = false := by
  rw [readText, Expr.parse_lex_spell_iff speaks writes simple,
    Expr.avoids_congr lefts rights simple]

theorem Language.joinsMinus_eq_false {language : Language} (apart : language.isPair '-' '-' = false)
    (expr : Expr) : expr.joinsMinus language = false := by
  rw [Expr.joinsMinus, apart, Bool.false_and]

section

variable (scope : Scope) {expr : Expr}

theorem python_reads_iff (simple : expr.isSimple python.isName) :
    readText python (Target.Python.spelling scope) expr =
        some (expr.termIn (Target.Python.spelling scope)) ↔
      expr.avoids isOverComparison isOverComparison := by
  have lefts : ∀ op ∈ Subset.binaryOperators, ∀ operand ∈ Subset.binaryOperators,
      python.splitsLeft (Target.Python.spelling emptyScope) (Operator.symbol op)
        (Operator.symbol operand) =
      isOverComparison (Operator.symbol op) (Operator.symbol operand) := by decide +kernel
  have rights : ∀ op ∈ Subset.binaryOperators, ∀ operand ∈ Subset.binaryOperators,
      python.splitsRight (Target.Python.spelling emptyScope) (Operator.symbol op)
        (Operator.symbol operand) =
      isOverComparison (Operator.symbol op) (Operator.symbol operand) := by decide +kernel
  rw [readText_iff (python_speaks scope) (python_writes scope) lefts rights simple]
  exact and_iff_left (Language.joinsMinus_eq_false (by decide) expr)

theorem ruby_reads_iff (simple : expr.isSimple ruby.isName) :
    readText ruby Target.Ruby.spelling expr = some (expr.termIn Target.Ruby.spelling) ↔
      expr.avoids isBitwiseOverComparison isOverBitwise := by
  have lefts : ∀ op ∈ Subset.binaryOperators, ∀ operand ∈ Subset.binaryOperators,
      ruby.splitsLeft Target.Ruby.spelling (Operator.symbol op) (Operator.symbol operand) =
      isBitwiseOverComparison (Operator.symbol op) (Operator.symbol operand) := by decide +kernel
  have rights : ∀ op ∈ Subset.binaryOperators, ∀ operand ∈ Subset.binaryOperators,
      ruby.splitsRight Target.Ruby.spelling (Operator.symbol op) (Operator.symbol operand) =
      isOverBitwise (Operator.symbol op) (Operator.symbol operand) := by decide +kernel
  rw [readText_iff ruby_speaks ruby_writes lefts rights simple]
  exact and_iff_left (Language.joinsMinus_eq_false (by decide) expr)

theorem lua_reads_iff (simple : expr.isSimple lua.isName) :
    readText lua (Target.Lua.spelling scope) expr =
        some (expr.termIn (Target.Lua.spelling scope)) ↔
      expr.avoids isBitwiseOverComparison isOverComparison ∧ expr.negatesNegative = false := by
  have lefts : ∀ op ∈ Subset.binaryOperators, ∀ operand ∈ Subset.binaryOperators,
      lua.splitsLeft (Target.Lua.spelling emptyScope) (Operator.symbol op)
        (Operator.symbol operand) =
      isBitwiseOverComparison (Operator.symbol op) (Operator.symbol operand) := by decide +kernel
  have rights : ∀ op ∈ Subset.binaryOperators, ∀ operand ∈ Subset.binaryOperators,
      lua.splitsRight (Target.Lua.spelling emptyScope) (Operator.symbol op)
        (Operator.symbol operand) =
      isOverComparison (Operator.symbol op) (Operator.symbol operand) := by decide +kernel
  have joins : expr.joinsMinus lua = expr.negatesNegative := by
    rw [Expr.joinsMinus, show lua.isPair '-' '-' = true by decide, Bool.true_and]
  rw [readText_iff (lua_speaks scope) (lua_writes scope) lefts rights simple, joins]

end

/-- The text of an expression for a target keeps its structure exactly if no operand stands where
the target reads it otherwise. In all three, comparisons bind less than bitwise operators. They
chain in `python`, and all are of one level in `lua`, where two minus signs start a comment. The
operators `|` and `^` are of one level in `ruby`. -/
theorem dynamic_text_reads_back_iff (scope : Scope) (expr : Expr) :
    (expr.isSimple python.isName →
      (readText python (Target.Python.spelling scope) expr =
          some (expr.termIn (Target.Python.spelling scope)) ↔
        expr.avoids isOverComparison isOverComparison)) ∧
    (expr.isSimple ruby.isName →
      (readText ruby Target.Ruby.spelling expr = some (expr.termIn Target.Ruby.spelling) ↔
        expr.avoids isBitwiseOverComparison isOverBitwise)) ∧
    (expr.isSimple lua.isName →
      (readText lua (Target.Lua.spelling scope) expr =
          some (expr.termIn (Target.Lua.spelling scope)) ↔
        expr.avoids isBitwiseOverComparison isOverComparison ∧ expr.negatesNegative = false)) :=
  ⟨python_reads_iff scope, ruby_reads_iff, lua_reads_iff scope⟩

/-- A product inside a sum inside a comparison needs no parentheses in any target, and a comparison
inside a conjunction always has them. -/
theorem dynamic_text_reads_back_nested :
    let expr : Expr := .binary "and"
      (.binary "==" (.binary "+" (.name "a") (.binary "*" (.name "b") (.int (-3)))) (.int 7))
      (.unary (.sign "not") (.bool false))
    readText python (Target.Python.spelling emptyScope) expr =
        some (expr.termIn (Target.Python.spelling emptyScope)) ∧
      readText ruby Target.Ruby.spelling expr = some (expr.termIn Target.Ruby.spelling) ∧
      readText lua (Target.Lua.spelling emptyScope) expr =
        some (expr.termIn (Target.Lua.spelling emptyScope)) :=
  ⟨((dynamic_text_reads_back_iff emptyScope _).1 (by decide)).mpr (by decide),
    ((dynamic_text_reads_back_iff emptyScope _).2.1 (by decide)).mpr (by decide),
    ((dynamic_text_reads_back_iff emptyScope _).2.2 (by decide)).mpr (by decide)⟩

/-- A comparison as an operand of `&` is written without parentheses, and all three targets take its
second operand for an operand of `&`. -/
theorem dynamic_text_misread :
    let expr : Expr := .binary "&" (.binary "==" (.name "a") (.name "b")) (.name "c")
    let root : Format :=
      { name := "top", order := .little,
        fields := ["a", "b", "c"].map fun id => { id, type := .primitive .u1 },
        instances := [⟨"v", .value expr⟩] }
    let module : Module := ⟨root, []⟩
    let misread : Term := .binary "==" (.leaf (.name "a"))
      (.binary "&" (.leaf (.name "b")) (.leaf (.name "c")))
    root.violation? = none ∧ Module.ofFormat root = .ok module ∧ module.unsupported? = none ∧
      expr.spell Target.Ruby.spelling = "a == b & c" ∧
      readText python (Target.Python.spelling module.rootScope) expr = some misread ∧
      readText ruby Target.Ruby.spelling expr = some misread ∧
      readText lua (Target.Lua.spelling module.rootScope) expr = some misread := by
  intro expr root module misread
  exact ⟨by decide, rfl, by decide +kernel, by decide +kernel, by decide +kernel,
    by decide +kernel, by decide +kernel⟩

end FormatCompiler.Grouping
