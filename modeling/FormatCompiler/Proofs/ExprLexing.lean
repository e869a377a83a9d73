import FormatCompiler.Proofs.ExprGrouping
import FormatCompiler.Proofs.Numeral

/-!
How a reader of a language cuts the text of an expression into tokens. The text is cut into the
tokens of its pieces, unless two minus signs meet and the language has a token for them.
-/

namespace FormatCompiler

set_option autoImplicit false

namespace Grouping

/-! ### The tokens of a text -/

/-- A path of names with points and colons between them is one word. -/
def isWordChar (c : Char) : Bool :=
  isNameChar c || c == '.' || c == ':'

/-- What the characters read last are part of. -/
inductive Held where
  | nothing
  | word (text : List Char)
  /-- A word with an opening parenthesis. -/
  | call (text : List Char)
  | mark (c : Char)
  deriving DecidableEq, Repr

namespace Language

variable (language : Language)

def wordToken (text : List Char) : Token :=
  match Text.readMagnitude 10 text with
  | some value => .number value
  | none =>
    let word := String.ofList text
    if language.isBinary word || language.isSign word then .symbol word else .word word

/-- Whether two characters make one token. -/
def isPair (first second : Char) : Bool :=
  (language.binary.map Prod.fst ++ language.pairs).contains (String.ofList [first, second])

/-- The tokens of what is held, if nothing more belongs to it. -/
def release : Held → List Token
  | .nothing => []
  | .word text => [language.wordToken text]
  | .call text => [language.wordToken text, .opening]
  | .mark c => [.symbol (String.ofList [c])]

/-- The first character after a finished token. -/
def start (c : Char) : List Token × Held :=
  if isWordChar c then ([], .word [c])
  else if c = ' ' then ([], .nothing)
  else if c = '(' then ([.opening], .nothing)
  else if c = ')' then ([.closing], .nothing)
  else ([], .mark c)

def scanChar (held : Held) (c : Char) : List Token × Held :=
  let fresh := (language.release held ++ (start c).1, (start c).2)
  match held with
  | .nothing => fresh
  | .word text =>
    if isWordChar c then ([], .word (text ++ [c]))
    else if c = '(' then ([], .call text)
    else fresh
  | .call text =>
    -- A word with an empty pair of parentheses is a word.
    if c = ')' then ([.word (String.ofList (text ++ ['(', ')']))], .nothing) else fresh
  | .mark first =>
    if language.isPair first c then ([.symbol (String.ofList [first, c])], .nothing) else fresh

def scan (held : Held) : List Char → List Token × Held
  | [] => ([], held)
  | c :: rest =>
    let (tokens, next) := language.scanChar held c
    let (more, last) := scan next rest
    (tokens ++ more, last)

/-- The tokens of a text. -/
def lex (text : List Char) : List Token :=
  let (tokens, held) := language.scan .nothing text
  tokens ++ language.release held

theorem scan_cons (held : Held) (c : Char) (rest : List Char) :
    language.scan held (c :: rest) =
      ((language.scanChar held c).1 ++ (language.scan (language.scanChar held c).2 rest).1,
        (language.scan (language.scanChar held c).2 rest).2) := rfl

theorem scan_append (held : Held) (text rest : List Char) :
    language.scan held (text ++ rest) =
      ((language.scan held text).1 ++ (language.scan (language.scan held text).2 rest).1,
        (language.scan (language.scan held text).2 rest).2) := by
  induction text generalizing held with
  | nil => rfl
  | cons c text ih => simp [scan_cons, ih]

theorem scan_word (before text : List Char) (wordChars : ∀ c ∈ text, isWordChar c) :
    language.scan (.word before) text = ([], .word (before ++ text)) := by
  induction text generalizing before with
  | nil => simp [scan]
  | cons c text ih =>
    have first : language.scanChar (.word before) c = ([], .word (before ++ [c])) := by
      simp [scanChar, wordChars c]
    have rest := ih (before ++ [c]) fun d member => wordChars d (List.mem_cons_of_mem _ member)
    rw [scan_cons, first, rest]
    simp

theorem scan_nothing_word {text : List Char} (nonempty : text ≠ [])
    (wordChars : ∀ c ∈ text, isWordChar c) :
    language.scan .nothing text = ([], .word text) := by
  cases text with
  | nil => exact absurd rfl nonempty
  | cons c text =>
    have first : language.scanChar .nothing c = ([], .word [c]) := by
      simp [scanChar, release, start, wordChars c]
    rw [scan_cons, first,
      language.scan_word [c] text fun d member => wordChars d (List.mem_cons_of_mem _ member)]
    rfl

end Language

/-! ### Texts that may stand before a space or a closing parenthesis -/

/-- Whether what is held ends at a space and at a closing parenthesis. -/
def Held.isLoose : Held → Bool
  | .nothing | .word _ => true
  | .call _ | .mark _ => false

/-- A text has the given tokens, whatever word follows after a space or a parenthesis. -/
def Spells (language : Language) (text : List Char) (tokens : List Token) : Prop :=
  ∃ emitted held, language.scan .nothing text = (emitted, held) ∧ held.isLoose = true ∧
    emitted ++ language.release held = tokens

namespace Spells

variable {language : Language} {text rest : List Char} {tokens more : List Token}

theorem lex_eq (spells : Spells language text tokens) : language.lex text = tokens := by
  obtain ⟨emitted, held, scanned, _, released⟩ := spells
  rw [Language.lex, scanned]
  exact released

/-- A space or a closing parenthesis ends a text. -/
theorem scan_close (spells : Spells language text tokens) {c : Char} (ends : c = ' ' ∨ c = ')')
    (rest : List Char) :
    language.scan .nothing (text ++ c :: rest) =
      (tokens ++ (Language.start c).1 ++ (language.scan .nothing rest).1,
        (language.scan .nothing rest).2) := by
  obtain ⟨emitted, held, scanned, loose, released⟩ := spells
  have closed : language.scanChar held c =
      (language.release held ++ (Language.start c).1, .nothing) := by
    cases held with
    | nothing => rcases ends with rfl | rfl <;> rfl
    | word word => rcases ends with rfl | rfl <;> rfl
    | call _ => cases loose
    | mark _ => cases loose
  rw [Language.scan_append, scanned, Language.scan_cons, closed]
  simp [← released]

theorem word (nonempty : text ≠ []) (wordChars : ∀ c ∈ text, isWordChar c) :
    Spells language text [language.wordToken text] :=
  ⟨[], .word text, language.scan_nothing_word nonempty wordChars, rfl, rfl⟩

theorem group (spells : Spells language text tokens) :
    Spells language ('(' :: text ++ [')']) (.opening :: tokens ++ [.closing]) := by
  refine ⟨.opening :: tokens ++ [.closing], .nothing, ?_, rfl, by simp [Language.release]⟩
  rw [List.cons_append, Language.scan_cons]
  change ([Token.opening] ++ (language.scan .nothing (text ++ [')'])).1,
    (language.scan .nothing (text ++ [')'])).2) = _
  rw [spells.scan_close (Or.inr rfl)]
  simp [Language.scan, Language.start, isWordChar, isNameChar]

/-- What a text with a finished token at its end is followed by starts afresh. -/
theorem after_token {token : Token} {head : List Char}
    (finished : language.scan .nothing head = ([token], .nothing))
    (spells : Spells language text tokens) : Spells language (head ++ text) (token :: tokens) := by
  obtain ⟨emitted, held, scanned, loose, released⟩ := spells
  refine ⟨token :: emitted, held, ?_, loose, by rw [List.cons_append, released]⟩
  rw [Language.scan_append, finished, scanned]
  rfl

theorem operation {op : String} (left : Spells language text tokens)
    (operator : language.scan .nothing (op.toList ++ [' ']) = ([.symbol op], .nothing))
    (right : Spells language rest more) :
    Spells language (text ++ ' ' :: (op.toList ++ ' ' :: rest)) (tokens ++ .symbol op :: more) := by
  have tail : Spells language (op.toList ++ ' ' :: rest) (.symbol op :: more) := by
    simpa using after_token operator right
  obtain ⟨emitted, held, scanned, loose, released⟩ := tail
  refine ⟨tokens ++ emitted, held, ?_, loose, by rw [List.append_assoc, released]⟩
  rw [left.scan_close (Or.inl rfl), scanned]
  simp [Language.start, isWordChar, isNameChar]

/-- A sign of one character before a text that it makes no token with. -/
theorem mark {sign c : Char} (isMark : Language.start sign = ([], .mark sign))
    (unpaired : language.isPair sign c = false) (spells : Spells language (c :: text) tokens) :
    Spells language (sign :: c :: text) (.symbol (String.ofList [sign]) :: tokens) := by
  obtain ⟨emitted, held, scanned, loose, released⟩ := spells
  refine ⟨.symbol (String.ofList [sign]) :: emitted, held, ?_, loose,
    by rw [List.cons_append, released]⟩
  have first : language.scanChar .nothing sign = ([], .mark sign) := by
    simp [Language.scanChar, Language.release, isMark]
  have second : language.scanChar (.mark sign) c =
      (.symbol (String.ofList [sign]) :: (language.scanChar .nothing c).1,
        (language.scanChar .nothing c).2) := by
    simp [Language.scanChar, unpaired, Language.release]
  rw [Language.scan_cons, Prod.mk.injEq] at scanned
  obtain ⟨rfl, rfl⟩ := scanned
  rw [Language.scan_cons, first, Language.scan_cons, second]
  rfl

end Spells

/-! ### The texts of expressions -/

namespace Language

variable (language : Language)

/-- Whether a character makes no token with the start of a word or an opening parenthesis. -/
def isLone (c : Char) : Bool :=
  (language.binary.map Prod.fst ++ language.pairs).all fun text =>
    match text.toList with
    | [first, second] => first != c || !(isNameChar second || second == '(')
    | _ => true

/-- Whether the text of a sign is told apart from an operand, a second minus sign left aside. -/
def cutsSign (text : String) : Bool :=
  match text.toList with
  | [c] =>
    start c == ([], .mark c) && language.isLone c && (c == '-' || !language.isPair c '-')
  | _ => language.scan .nothing text.toList == ([.symbol (signWord text)], .nothing)

variable {language}

theorem isPair_eq_false_of_isLone {first second : Char} (lone : language.isLone first)
    (starts : isNameChar second || second == '(') : language.isPair first second = false := by
  rw [Bool.eq_false_iff]
  intro paired
  rw [isPair, List.contains_iff_mem] at paired
  have tested := List.all_eq_true.mp lone _ paired
  simp [starts] at tested

end Language

/-- A text that is one word of a language. -/
structure IsWord (language : Language) (text : String) : Prop where
  spells : Spells language text.toList [.word text]
  starts : ∃ c rest, text.toList = c :: rest ∧ isNameChar c

theorem isWord_of_wordToken {language : Language} {text : String} {c : Char} {rest : List Char}
    (shape : text.toList = c :: rest) (named : isNameChar c)
    (wordChars : text.toList.all isWordChar)
    (token : language.wordToken text.toList = .word text) : IsWord language text where
  spells := by
    rw [← token]
    exact Spells.word (by rw [shape]; simp) (List.all_eq_true.mp wordChars)
  starts := ⟨c, rest, shape, named⟩

namespace Language

variable (language : Language)

def isWord (text : String) : Bool :=
  text.toList.head?.any isNameChar && text.toList.all isWordChar &&
    language.wordToken text.toList == .word text

/-- Whether the truth values and operators of a spelling are cut as they should be, two minus signs
apart. -/
def cuts (spelling : Spelling) : Bool :=
  language.isLone '-' && !language.isSign "--" && !language.isBinary "--" &&
  [true, false].all (fun value => language.isWord (spelling.truth value)) &&
  Subset.binaryOperators.all (fun op =>
    language.scan .nothing ((spelling.binaryOf op).toList ++ [' ']) ==
      ([.symbol (spelling.binaryOf op)], .nothing)) &&
  Subset.unaryOperators.all (fun op =>
    let text := spelling.unary (Operator.symbol op)
    language.cutsSign text && (text == "-") == (op == "-"))

end Language

/-- A language in which the texts of a spelling are cut into its words and operators. -/
structure Writes (language : Language) (spelling : Spelling) : Prop where
  cuts : language.cuts spelling.nameless = true
  name : ∀ id, language.isName id → IsWord language (spelling.name id)

namespace Writes

variable {language : Language} {spelling : Spelling} (writes : Writes language spelling)

include writes

theorem cuts_parts :
    language.isLone '-' ∧ language.isSign "--" = false ∧ language.isBinary "--" = false ∧
      (∀ value, language.isWord (spelling.truth value)) ∧
      (∀ op ∈ Subset.binaryOperators,
        language.scan .nothing ((spelling.binaryOf op).toList ++ [' ']) =
          ([.symbol (spelling.binaryOf op)], .nothing)) ∧
      ∀ op ∈ Subset.unaryOperators, language.cutsSign (spelling.unary (Operator.symbol op)) ∧
        (spelling.unary (Operator.symbol op) = "-" ↔ op = "-") := by
  have cuts := writes.cuts
  simp only [Language.cuts, Bool.and_eq_true, Bool.not_eq_true', List.all_eq_true,
    beq_iff_eq] at cuts
  obtain ⟨⟨⟨⟨⟨lone, noSign⟩, noBinary⟩, truths⟩, binaries⟩, signs⟩ := cuts
  refine ⟨lone, noSign, noBinary, ?_, binaries, ?_⟩
  · intro value
    exact truths value (by cases value <;> decide)
  · intro op known
    obtain ⟨fits, same⟩ := signs op known
    rw [Bool.eq_iff_iff, beq_iff_eq, beq_iff_eq] at same
    exact ⟨fits, same⟩

theorem lone : language.isLone '-' := writes.cuts_parts.1

theorem unknown : language.isSign "--" = false ∧ language.isBinary "--" = false :=
  ⟨writes.cuts_parts.2.1, writes.cuts_parts.2.2.1⟩

theorem truth (value : Bool) : IsWord language (spelling.truth value) := by
  have isWord := writes.cuts_parts.2.2.2.1 value
  simp only [Language.isWord, Bool.and_eq_true, beq_iff_eq] at isWord
  obtain ⟨⟨starts, wordChars⟩, token⟩ := isWord
  cases shape : (spelling.truth value).toList with
  | nil =>
    rw [shape] at starts
    cases starts
  | cons c rest =>
    rw [shape] at starts
    exact isWord_of_wordToken shape starts wordChars token

theorem binary {op : String} (known : op ∈ Subset.binaryOperators) :
    language.scan .nothing ((spelling.binaryOf op).toList ++ [' ']) =
      ([.symbol (spelling.binaryOf op)], .nothing) :=
  writes.cuts_parts.2.2.2.2.1 op known

theorem sign {op : String} (known : op ∈ Subset.unaryOperators) :
    language.cutsSign (spelling.unary (Operator.symbol op)) ∧
      (spelling.unary (Operator.symbol op) = "-" ↔ op = "-") :=
  writes.cuts_parts.2.2.2.2.2 op known

end Writes

end Grouping

open Grouping

namespace Expr

def isNegative : Expr → Bool
  | .int value => decide (value.toInt < 0)
  | _ => false

/-- Whether a minus sign stands before a negative literal. -/
def negatesNegative : Expr → Bool
  | .int _ | .bool _ | .name _ => false
  | .unary op operand => op == .sign "-" && operand.isNegative || operand.negatesNegative
  | .binary _ lhs rhs => lhs.negatesNegative || rhs.negatesNegative

end Expr

def Piece.chars (piece : Piece) : List Char := piece.text.toList

namespace Expr

/-- The characters of an expression where operators of the strength `around` bind it. -/
def chars (spelling : Spelling) (around : Nat) (expr : Expr) : List Char :=
  (expr.pieces spelling around).flatMap Piece.chars

section

variable (spelling : Spelling) (around : Nat)

theorem toList_spell (expr : Expr) :
    (expr.spell spelling).toList = expr.chars spelling Operator.outermost := by
  rw [spell, chars, String.toList_join, List.flatMap_map]
  rfl

theorem chars_int (value : Int64) :
    (Expr.int value).chars spelling around = (Text.showInt64 value).toList := by
  simp [chars, pieces, Piece.chars, Piece.text]

theorem chars_bool (value : Bool) :
    (Expr.bool value).chars spelling around = (spelling.truth value).toList := by
  simp [chars, pieces, Piece.chars, Piece.text]

theorem chars_name (id : String) :
    (Expr.name id).chars spelling around = (spelling.name id).toList := by
  simp [chars, pieces, Piece.chars, Piece.text]

theorem chars_sign (op : String) (operand : Expr) :
    (Expr.unary (.sign op) operand).chars spelling around =
      '(' :: ((spelling.unary (Operator.symbol op)).toList ++
        operand.chars spelling Operator.unaryStrength) ++ [')'] := by
  simp [chars, pieces, Piece.chars, Piece.text]

theorem chars_binary (op : String) (lhs rhs : Expr) :
    (Expr.binary op lhs rhs).chars spelling around =
      let symbol := Operator.symbol op
      let left := lhs.chars spelling (Operator.strength symbol)
      let right := rhs.chars spelling (Operator.strength symbol + 1)
      let between := (spelling.binaryOf op).toList
      if Operator.isLogical symbol then
        '(' :: ('(' :: left ++ [')'] ++ ' ' :: (between ++ ' ' :: ('(' :: right ++ [')']))) ++ [')']
      else if Operator.isBare around symbol then left ++ ' ' :: (between ++ ' ' :: right)
      else '(' :: (left ++ ' ' :: (between ++ ' ' :: right)) ++ [')'] := by
  rw [chars, pieces]
  by_cases logical : Operator.isLogical (Operator.symbol op)
  · simp [logical, Piece.chars, Piece.text, Spelling.binaryOf, chars]
  · by_cases bound : Operator.strength (Operator.symbol op) ≤ around
    · simp [logical, bound, Operator.isBare, Nat.not_lt.mpr bound, Piece.chars, Piece.text,
        Spelling.binaryOf, chars]
    · simp [logical, bound, Operator.isBare, Nat.lt_of_not_le bound, Piece.chars, Piece.text,
        Spelling.binaryOf, chars]

end

end Expr

section

variable {language : Language} {spelling : Spelling}

theorem wordToken_showNat (language : Language) (n : Nat) :
    language.wordToken (Text.showNat n).toList = .number n := by
  rw [Language.wordToken, Text.readMagnitude_showNat]

theorem isNameChar_of_isDigit {c : Char} (digit : c.isDigit) : isNameChar c := by
  simp [isNameChar, Char.isAlphanum, digit]

theorem spells_showNat (language : Language) (n : Nat) :
    Spells language (Text.showNat n).toList [.number n] := by
  have wordChars : ∀ c ∈ (Text.showNat n).toList, isWordChar c := by
    intro c member
    simp [isWordChar, isNameChar_of_isDigit (Text.isDigit_of_mem_showNat member)]
  rw [← wordToken_showNat language n]
  exact Spells.word (Text.showNat_ne_nil n) wordChars

theorem start_minus : Language.start '-' = ([], .mark '-') := by decide

theorem spells_literal (lone : language.isLone '-') (value : Int64) :
    Spells language (Text.showInt64 value).toList (literalLayout value.toInt).tokens := by
  unfold Text.showInt64
  cases value.toInt with
  | ofNat magnitude => exact spells_showNat language magnitude
  | negSucc magnitude =>
    obtain ⟨c, rest, shape, digit⟩ := Text.showNat_eq_cons (magnitude + 1)
    have digits := spells_showNat language (magnitude + 1)
    have unpaired : language.isPair '-' c = false :=
      Language.isPair_eq_false_of_isLone lone (by simp [isNameChar_of_isDigit digit])
    rw [shape] at digits
    have signed := digits.mark start_minus unpaired
    simpa [Text.showInt, shape, literalLayout, Layout.tokens] using signed

/-- An operand of a unary operator starts with a word or a parenthesis, unless it is a negative
literal. -/
theorem Expr.chars_unaryStrength (writes : Writes language spelling) {expr : Expr}
    (simple : expr.isSimple language.isName) (positive : expr.isNegative = false) :
    ∃ c rest, expr.chars spelling Operator.unaryStrength = c :: rest ∧
      (isNameChar c || c == '(') := by
  induction expr, simple using isSimple_rec with
  | int value =>
    have magnitude : ∃ n : Nat, value.toInt = .ofNat n := by
      simp only [isNegative, decide_eq_false_iff_not, Int.not_lt] at positive
      exact ⟨value.toInt.toNat, (Int.toNat_of_nonneg positive).symm⟩
    obtain ⟨n, isNat⟩ := magnitude
    obtain ⟨c, rest, shape, digit⟩ := Text.showNat_eq_cons n
    refine ⟨c, rest, ?_, by simp [isNameChar_of_isDigit digit]⟩
    simpa [chars_int, Text.showInt64, isNat, Text.showInt] using shape
  | bool value =>
    obtain ⟨c, rest, shape, named⟩ := (writes.truth value).starts
    exact ⟨c, rest, by rw [chars_bool, shape], by simp [named]⟩
  | name id isName =>
    obtain ⟨c, rest, shape, named⟩ := (writes.name id isName).starts
    exact ⟨c, rest, by rw [chars_name, shape], by simp [named]⟩
  | sign op operand _ _ _ _ => exact ⟨'(', _, chars_sign spelling _ op operand, rfl⟩
  | binary op lhs rhs _ _ _ _ _ _ =>
    simp only [chars_binary, Operator.isBare_unaryStrength]
    split
    · exact ⟨'(', _, rfl, rfl⟩
    · exact ⟨'(', _, rfl, rfl⟩

/-- Whether two minus signs of an expression become one token. -/
def Expr.joinsMinus (language : Language) (expr : Expr) : Bool :=
  language.isPair '-' '-' && expr.negatesNegative

/-- How the tokens found in the text of an expression go with the expected ones: they are the same
unless two minus signs have become one. -/
structure Cut (language : Language) (expr : Expr) (expected tokens : List Token) : Prop where
  kept : expr.joinsMinus language = false → tokens = expected
  joined : expr.joinsMinus language = true → .symbol "--" ∈ tokens

namespace Cut

variable {expr operand lhs rhs : Expr} {expected tokens : List Token}

theorem group (cut : Cut language expr expected tokens) :
    Cut language expr (.opening :: expected ++ [.closing]) (.opening :: tokens ++ [.closing]) where
  kept unjoined := by rw [cut.kept unjoined]
  joined isJoined := by simp [cut.joined isJoined]

theorem sign {op text : String} (cut : Cut language operand expected tokens)
    (apart : (language.isPair '-' '-' && (op == "-" && operand.isNegative)) = false) :
    Cut language (.unary (.sign op) operand) (.symbol text :: expected)
      (.symbol text :: tokens) := by
  have same : (Expr.unary (.sign op) operand).joinsMinus language =
      operand.joinsMinus language := by
    have isSign : (UnaryOp.sign op == UnaryOp.sign "-") = (op == "-") := by
      rw [Bool.eq_iff_iff, beq_iff_eq, beq_iff_eq, UnaryOp.sign.injEq]
    rw [Expr.joinsMinus, Expr.negatesNegative, isSign, Bool.and_or_distrib_left, apart,
      Bool.false_or, Expr.joinsMinus]
  constructor
  · intro unjoined
    rw [cut.kept (same ▸ unjoined)]
  · intro isJoined
    exact List.mem_cons_of_mem _ (cut.joined (same ▸ isJoined))

theorem operation {op text : String} {expectedRight right : List Token}
    (leftCut : Cut language lhs expected tokens) (rightCut : Cut language rhs expectedRight right) :
    Cut language (.binary op lhs rhs) (expected ++ .symbol text :: expectedRight)
      (tokens ++ .symbol text :: right) := by
  have both : (Expr.binary op lhs rhs).joinsMinus language =
      (lhs.joinsMinus language || rhs.joinsMinus language) := by
    simp only [Expr.joinsMinus, Expr.negatesNegative, Bool.and_or_distrib_left]
  constructor
  · intro unjoined
    rw [both, Bool.or_eq_false_iff] at unjoined
    rw [leftCut.kept unjoined.1, rightCut.kept unjoined.2]
  · intro isJoined
    rw [both, Bool.or_eq_true] at isJoined
    rcases isJoined with inLeft | inRight
    · exact List.mem_append_left _ (leftCut.joined inLeft)
    · exact List.mem_append_right _ (List.mem_cons_of_mem _ (rightCut.joined inRight))

end Cut

theorem signWord_singleton {text : String} {c : Char} (shape : text.toList = [c])
    (isMark : Language.start c = ([], .mark c)) : signWord text = String.ofList [c] := by
  have visible : c ≠ ' ' := by
    rintro rfl
    cases isMark
  simp [signWord, shape, visible]

/-- Two minus signs before a numeral, in a language with a token for them. -/
theorem spells_doubled (paired : language.isPair '-' '-') (n : Nat) :
    Spells language ('-' :: '-' :: (Text.showNat n).toList) [.symbol "--", .number n] := by
  have joined : language.scan .nothing ['-', '-'] = ([.symbol "--"], .nothing) := by
    have first : language.scanChar .nothing '-' = ([], .mark '-') := by
      simp [Language.scanChar, Language.release, start_minus]
    have second : language.scanChar (.mark '-') '-' = ([.symbol "--"], .nothing) := by
      simp [Language.scanChar, paired]
    rw [Language.scan_cons, first, Language.scan_cons, second]
    rfl
  exact (spells_showNat language n).after_token joined

theorem Expr.chars_negative (spelling : Spelling) (around : Nat) {expr : Expr}
    (negative : expr.isNegative) :
    ∃ n, expr.chars spelling around = '-' :: (Text.showNat n).toList := by
  cases expr with
  | int value =>
    rw [chars_int, Text.showInt64]
    simp only [isNegative, decide_eq_true_eq] at negative
    cases shape : value.toInt with
    | ofNat magnitude =>
      rw [shape] at negative
      exact absurd negative (Int.not_lt.mpr (Int.natCast_nonneg magnitude))
    | negSucc magnitude => exact ⟨magnitude + 1, by simp [Text.showInt]⟩
  | bool _ => cases negative
  | name _ => cases negative
  | unary _ _ => cases negative
  | binary _ _ _ => cases negative

/-- A sign before the text of an operand. -/
theorem spells_sign (writes : Writes language spelling) {op : String} {operand : Expr}
    {expected tokens : List Token} (known : op ∈ Subset.unaryOperators)
    (simple : operand.isSimple language.isName)
    (spells : Spells language (operand.chars spelling Operator.unaryStrength) tokens)
    (cut : Cut language operand expected tokens) :
    ∃ found, Spells language ((spelling.unary (Operator.symbol op)).toList ++
        operand.chars spelling Operator.unaryStrength) found ∧
      Cut language (.unary (.sign op) operand) (.symbol (spelling.signOf op) :: expected)
        found := by
  obtain ⟨fits, isMinus⟩ := writes.sign known
  unfold Language.cutsSign at fits
  split at fits
  · rename_i c shape
    simp only [Bool.and_eq_true, beq_iff_eq, Bool.or_eq_true, Bool.not_eq_true'] at fits
    obtain ⟨⟨isMark, lone⟩, minusOrUnpaired⟩ := fits
    have isMinusChar : op = "-" ↔ c = '-' := by
      rw [← isMinus, ← String.toList_inj, shape]
      exact List.singleton_inj
    rw [Spelling.signOf, signWord_singleton shape isMark, shape]
    cases negative : operand.isNegative with
    | false =>
      obtain ⟨first, rest, start, starts⟩ := Expr.chars_unaryStrength writes simple negative
      rw [start] at spells ⊢
      have unpaired := Language.isPair_eq_false_of_isLone lone starts
      exact ⟨_, spells.mark isMark unpaired, cut.sign (by simp [negative])⟩
    | true =>
      obtain ⟨n, start⟩ := Expr.chars_negative spelling Operator.unaryStrength negative
      rw [start] at spells ⊢
      cases paired : language.isPair c '-' with
      | false =>
        have apart : (language.isPair '-' '-' && (op == "-" && operand.isNegative)) = false := by
          rw [Bool.eq_false_iff]
          intro joins
          simp only [Bool.and_eq_true, beq_iff_eq] at joins
          rw [isMinusChar.mp joins.2.1, joins.1] at paired
          cases paired
        exact ⟨_, spells.mark isMark paired, cut.sign apart⟩
      | true =>
        have isDash : c = '-' := by
          rcases minusOrUnpaired with same | unpaired
          · exact same
          · rw [paired] at unpaired
            cases unpaired
        subst isDash
        refine ⟨_, spells_doubled paired n, ?_, fun _ => List.mem_cons_self⟩
        intro unjoined
        simp [Expr.joinsMinus, Expr.negatesNegative, paired, isMinusChar, negative] at unjoined
  · rename_i longer
    have notMinus : op ≠ "-" := by
      intro same
      exact longer '-' (by rw [isMinus.mpr same]; rfl)
    have finished := beq_iff_eq.mp fits
    exact ⟨_, spells.after_token finished, cut.sign (by simp [notMinus])⟩

theorem Expr.spells_chars (writes : Writes language spelling) (around : Nat) (expr : Expr)
    (simple : expr.isSimple language.isName) :
    ∃ tokens, Spells language (expr.chars spelling around) tokens ∧
      Cut language expr (expr.grouping spelling around).tokens tokens := by
  induction expr, simple using isSimple_rec generalizing around with
  | int value =>
    rw [chars_int]
    exact ⟨_, spells_literal writes.lone value, fun _ => rfl, by simp [joinsMinus, negatesNegative]⟩
  | bool value =>
    rw [chars_bool]
    exact ⟨_, (writes.truth value).spells, fun _ => rfl, by simp [joinsMinus, negatesNegative]⟩
  | name id isName =>
    rw [chars_name]
    exact ⟨_, (writes.name id isName).spells, fun _ => rfl, by simp [joinsMinus, negatesNegative]⟩
  | sign op operand known simple ih _ =>
    obtain ⟨tokens, spells, cut⟩ := ih Operator.unaryStrength
    obtain ⟨found, foundSpells, foundCut⟩ := spells_sign writes known simple spells cut
    rw [chars_sign]
    exact ⟨_, foundSpells.group, foundCut.group⟩
  | binary op lhs rhs known _ _ lhsIH rhsIH _ =>
    have operator := writes.binary known
    obtain ⟨left, leftSpells, leftCut⟩ := lhsIH (Operator.strength (Operator.symbol op))
    obtain ⟨right, rightSpells, rightCut⟩ := rhsIH (Operator.strength (Operator.symbol op) + 1)
    rw [chars_binary, grouping]
    dsimp only
    split
    · exact ⟨_, (leftSpells.group.operation operator rightSpells.group).group,
        (leftCut.group.operation rightCut.group).group⟩
    · split
      · exact ⟨_, leftSpells.operation operator rightSpells, leftCut.operation rightCut⟩
      · exact ⟨_, (leftSpells.operation operator rightSpells).group,
          (leftCut.operation rightCut).group⟩

/-- The text of an expression is read as its tree exactly if no operator splits an operand and no
two minus signs become one token. -/
theorem Expr.parse_lex_spell_iff (speaks : Speaks language spelling)
    (writes : Writes language spelling) {expr : Expr} (simple : expr.isSimple language.isName) :
    parse language (language.lex (expr.spell spelling).toList) = some (expr.termIn spelling) ↔
      expr.avoids (language.splitsLeft spelling) (language.splitsRight spelling) ∧
        expr.joinsMinus language = false := by
  obtain ⟨tokens, spells, cut⟩ := expr.spells_chars writes Operator.outermost simple
  rw [toList_spell, spells.lex_eq]
  cases joins : expr.joinsMinus language with
  | false =>
    rw [cut.kept joins, ← tokens_pieces spelling language.isName _ expr simple]
    simpa [Expr.tokens] using expr.parse_tokens_iff_avoids speaks simple
  | true =>
    simp only [Bool.true_eq_false, and_false, iff_false]
    intro parsed
    obtain ⟨layout, found, _⟩ := Option.map_eq_some_iff.mp parsed
    obtain ⟨grouped, rfl⟩ := read_eq_some_iff.mp found
    have known := grouped.known (cut.joined joins)
    rw [writes.unknown.1, writes.unknown.2] at known
    rcases known with known | known <;> cases known

end

end FormatCompiler
